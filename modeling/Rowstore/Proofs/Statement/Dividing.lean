import Mathlib.Data.List.Infix
import Mathlib.Order.Bounds.Defs
import Rowstore.Proofs.Statement.Bounds

/-
  The ranges between commas tile the range that is divided,
  and the parenthesis that is found is the partner.

  One count of the open parentheses ignores those that are
  closed too often, and the other one stops there.  Where the
  parentheses are balanced both of them count the parentheses
  that are opened less those that are closed.

  Main declarations:
    * `Scan.level`, `Scan.Balanced` and `Scan.Divides`
    * `Scan.Tiles` and `Scan.exists_tiles`
    * `Scan.matchingParen_eq_some_iff`
    * `Scan.ranges_tile`
-/

namespace Rowstore

namespace Scan

open Lexeme Overrun

variable {scan : Scan} {t : Spanned} {ts us : List Spanned}
variable {base start finish i n depth : Nat}

------------------------------------------------------------
-- Levels
------------------------------------------------------------

/- What a token adds to the number of open parentheses. -/
def change : Token → Int
| .mark .openParen => 1
| .mark .closeParen => -1
| _ => 0

/- The number of parentheses that tokens open, less those that they close. -/
def level : List Spanned → Int
| [] => 0
| t :: ts => change t.1 + level ts

/-
  No parenthesis is closed that was not opened before, and
  none is left open.
-/
structure Balanced (ts : List Spanned) : Prop where
  opened : ∀ us, us <+: ts → 0 ≤ level us
  closed : level ts = 0

/- The starts of tokens are finitely many. -/
instance (ts : List Spanned) : Decidable (Balanced ts) :=
  decidable_of_iff
    ((∀ us ∈ ts.inits, 0 ≤ level us) ∧ level ts = 0)
    { mp := fun h =>
        ⟨fun us hPrefix =>
          h.1 us ((List.mem_inits us ts).mpr hPrefix), h.2⟩
      mpr := fun h =>
        ⟨fun us hStart =>
          h.opened us ((List.mem_inits us ts).mp hStart),
          h.closed⟩ }

/- The tokens of a scan from one index up to another. -/
def between
    (scan : Scan)
    (start finish : Nat) : List Spanned :=
  (scan.tokens.take finish).drop start

/- A comma stands at an index, outside of the parentheses that are opened from another one on. -/
def Divides
    (scan : Scan)
    (base i : Nat) : Prop :=
  scan.tokens[i]?.map Prod.fst = some (.mark .comma) ∧
    level (scan.between base i) = 0

instance
    (scan : Scan)
    (base : Nat) :
    DecidablePred (scan.Divides base) :=
  fun _ => inferInstanceAs (Decidable (_ ∧ _))

/- A closing parenthesis stands at an index. -/
def ClosesAt
    (scan : Scan)
    (i : Nat) : Prop :=
  scan.tokens[i]?.map Prod.fst = some (.mark .closeParen)

theorem level_append :
    level (ts ++ us) = level ts + level us := by
  induction ts with
  | nil => exact (Int.zero_add _).symm
  | cons t ts ih =>
      rw [List.cons_append, level, level, ih, Int.add_assoc]

theorem level_concat :
    level (ts ++ [t]) = level ts + change t.1 := by
  rw [level_append, level, level, Int.add_zero]

theorem between_self (scan : Scan) (i : Nat) :
    scan.between i i = [] :=
  List.drop_eq_nil_of_le (List.length_take_le i _)

theorem between_concat
    (hOrder : start ≤ i)
    (hAt : scan.tokens[i]? = some t) :
    scan.between start (i + 1) =
      scan.between start i ++ [t] := by
  rcases List.getElem?_eq_some_iff.mp hAt with ⟨hBound, rfl⟩
  have hTaken : start ≤ (scan.tokens.take i).length := by
    rw [List.length_take]
    omega
  rw [between, List.take_succ_eq_append_getElem hBound,
    List.drop_append_of_le_length hTaken]
  rfl

/- A range begins with each range that starts where it does and ends before it. -/
theorem between_isPrefix
    (hEnd : i ≤ finish) :
    scan.between start i <+: scan.between start finish :=
  List.IsPrefix.drop (List.take_prefix_take_left hEnd) start

/- What comes first after an index is the range behind it. -/
theorem between_of_drop
    (hSplit : scan.tokens.drop i = us ++ t :: ts) :
    scan.between i (i + us.length) = us ∧
      scan.tokens[i + us.length]? = some t := by
  rw [between, List.drop_take, hSplit,
    Nat.add_sub_cancel_left, List.take_left]
  refine ⟨rfl, ?_⟩
  rw [← List.getElem?_drop, hSplit]
  simp

------------------------------------------------------------
-- Partners
------------------------------------------------------------

theorem change_open
    (hOpen : t.1 = .mark .openParen) :
    change t.1 = 1 := by
  rw [hOpen]
  rfl

theorem change_close
    (hClose : t.1 = .mark .closeParen) :
    change t.1 = -1 := by
  rw [hClose]
  rfl

theorem change_plain
    (hNoOpen : t.1 ≠ .mark .openParen)
    (hNoClose : t.1 ≠ .mark .closeParen) :
    change t.1 = 0 := by
  unfold change
  split
  · contradiction
  · contradiction
  · rfl

/-
  The tokens close all that is open before them, but no
  parenthesis more, and not more than that at any place.
-/
structure Reaches
    (depth : Int)
    (ts : List Spanned) : Prop where
  opened : ∀ us, us <+: ts → 0 ≤ depth + level us
  closed : depth + level ts = 0

theorem reaches_zero_iff : Reaches 0 ts ↔ Balanced ts := by
  constructor
  · rintro ⟨hOpened, hClosed⟩
    simp only [Int.zero_add] at hOpened hClosed
    exact ⟨hOpened, hClosed⟩
  · rintro ⟨hOpened, hClosed⟩
    constructor
    · simpa only [Int.zero_add] using hOpened
    · simpa only [Int.zero_add] using hClosed

theorem reaches_nil_iff
    {depth : Int} :
    Reaches depth [] ↔ depth = 0 := by
  constructor
  · intro hReaches
    simpa only [level, Int.add_zero] using hReaches.closed
  · rintro rfl
    refine ⟨fun us hPrefix => ?_, rfl⟩
    rw [List.prefix_nil.mp hPrefix]
    exact Int.le_refl 0

/- A token in front changes the depth that is to be closed. -/
theorem reaches_cons_iff
    {depth : Int} :
    Reaches depth (t :: ts) ↔
      0 ≤ depth ∧ Reaches (depth + change t.1) ts := by
  constructor
  · intro hReaches
    have hNow := hReaches.opened [] List.nil_prefix
    refine ⟨by simpa only [level, Int.add_zero] using hNow, ?_⟩
    constructor
    · intro us hPrefix
      have hOpened :=
        hReaches.opened (t :: us)
          ((List.prefix_cons_inj t).mpr hPrefix)
      rwa [level, ← Int.add_assoc] at hOpened
    · have hClosed := hReaches.closed
      rwa [level, ← Int.add_assoc] at hClosed
  · rintro ⟨hNow, hOpened, hClosed⟩
    constructor
    · intro us hPrefix
      cases us with
      | nil => simpa only [level, Int.add_zero] using hNow
      | cons u us =>
          rw [List.cons_prefix_cons] at hPrefix
          rcases hPrefix with ⟨rfl, hPrefix⟩
          rw [level, ← Int.add_assoc]
          exact hOpened us hPrefix
    · rw [level, ← Int.add_assoc]
      exact hClosed

/-
  At an index, counted from that of the first token, stands
  the parenthesis that closes what is open before all tokens.
-/
def PartnerAt
    (depth : Int)
    (i : Nat)
    (ts : List Spanned)
    (c : Nat) : Prop :=
  ∃ us t vs,
    ts = us ++ t :: vs ∧ i + us.length = c ∧
      t.1 = .mark .closeParen ∧ Reaches depth us

theorem partnerAt_cons_iff
    {depth : Int}
    {c : Nat} :
    PartnerAt depth i (t :: ts) c ↔
      (t.1 = .mark .closeParen ∧ depth = 0 ∧ i = c) ∨
        (0 ≤ depth ∧
          PartnerAt (depth + change t.1) (i + 1) ts c) := by
  constructor
  · rintro ⟨us, u, vs, hSplit, hIndex, hClose, hReaches⟩
    cases us with
    | nil =>
        cases hSplit
        exact
          .inl ⟨hClose, reaches_nil_iff.mp hReaches, hIndex⟩
    | cons w us =>
        cases hSplit
        rw [reaches_cons_iff] at hReaches
        rw [List.length_cons] at hIndex
        exact
          .inr ⟨hReaches.1, us, u, vs, rfl, by omega, hClose,
            hReaches.2⟩
  · rintro (⟨hClose, hZero, hIndex⟩ |
      ⟨hNow, us, u, vs, hSplit, hIndex, hClose, hReaches⟩)
    · exact
        ⟨[], t, ts, rfl, hIndex, hClose,
          reaches_nil_iff.mpr hZero⟩
    · refine
        ⟨t :: us, u, vs, by rw [hSplit]; rfl, ?_, hClose,
          reaches_cons_iff.mpr ⟨hNow, hReaches⟩⟩
      rw [List.length_cons]
      omega

theorem not_partnerAt_of_neg
    {depth : Int}
    {c : Nat}
    (hBelow : depth < 0) :
    ¬PartnerAt depth i ts c := by
  rintro ⟨us, t, vs, _, _, _, hReaches⟩
  have hNow := hReaches.opened [] List.nil_prefix
  rw [level] at hNow
  omega

/- The search goes on with the depth after each token until the partner. -/
theorem closeFrom_eq_some_iff
    {c : Nat} :
    closeFrom depth i ts = some c ↔
      PartnerAt depth i ts c := by
  fun_induction closeFrom depth i ts with
  | case1 depth i =>
      refine iff_of_false (by simp) ?_
      rintro ⟨us, t, vs, hSplit, _⟩
      simp at hSplit
  | case2 i t ts depth hOpen ih =>
      rw [ih, partnerAt_cons_iff, change_open hOpen]
      simp [hOpen]
  | case3 i t ts hClose =>
      rw [partnerAt_cons_iff, change_close hClose]
      simp [hClose, not_partnerAt_of_neg]
  | case4 i t ts depth hClose ih =>
      have hNext :
          ((depth + 1 : Nat) : Int) + -1 = (depth : Int) := by
        omega
      rw [ih, partnerAt_cons_iff, change_close hClose, hNext]
      constructor
      · intro hPartner
        exact .inr ⟨by omega, hPartner⟩
      · rintro (⟨_, hZero, _⟩ | ⟨_, hPartner⟩)
        · omega
        · exact hPartner
  | case5 i t ts depth hNoOpen hNoFirst hNoClose ih =>
      have hOther : t.1 ≠ .mark .closeParen := by
        intro hClose
        cases depth with
        | zero => exact hNoFirst hClose rfl
        | succ depth => exact hNoClose depth hClose rfl
      rw [ih, partnerAt_cons_iff, change_plain hNoOpen hOther]
      simp [hOther]

theorem closesAt_iff :
    scan.ClosesAt i ↔
      ∃ t,
        scan.tokens[i]? = some t ∧ t.1 = .mark .closeParen := by
  unfold ClosesAt
  exact Option.map_eq_some_iff

theorem partnerAt_drop_iff
    {c : Nat} :
    PartnerAt 0 i (scan.tokens.drop i) c ↔
      i ≤ c ∧ Balanced (scan.between i c) ∧
        scan.ClosesAt c := by
  constructor
  · rintro ⟨us, t, vs, hSplit, rfl, hClose, hReaches⟩
    rcases between_of_drop hSplit with ⟨hBetween, hAt⟩
    rw [hBetween, ← reaches_zero_iff, closesAt_iff]
    exact ⟨Nat.le_add_right i _, hReaches, t, hAt, hClose⟩
  · rintro ⟨hOrder, hBalanced, hCloses⟩
    rcases closesAt_iff.mp hCloses with ⟨t, hAt, hClose⟩
    rcases List.getElem?_eq_some_iff.mp hAt with
      ⟨hBound, rfl⟩
    have hLength : (scan.tokens.take c).length = c :=
      List.length_take_of_le hBound.le
    refine
      ⟨scan.between i c, scan.tokens[c],
        scan.tokens.drop (c + 1), ?_, ?_, hClose,
        reaches_zero_iff.mpr hBalanced⟩
    · rw [← List.drop_eq_getElem_cons hBound, between]
      conv_lhs => rw [← List.take_append_drop c scan.tokens]
      exact List.drop_append_of_le_length (by omega)
    · rw [between, List.length_drop, hLength]
      omega

/- Tokens that are balanced beyond a place do not close more than they open there. -/
theorem not_balanced_of_closesAt
    {c : Nat}
    (hOrder : start ≤ i)
    (hBehind : i < c)
    (hLevel : level (scan.between start i) = 0)
    (hCloses : scan.ClosesAt i) :
    ¬Balanced (scan.between start c) := by
  intro hBalanced
  rcases closesAt_iff.mp hCloses with ⟨t, hAt, hClose⟩
  have hOpened := hBalanced.opened _ (between_isPrefix hBehind)
  rw [between_concat hOrder hAt, level_concat, hLevel,
    change_close hClose] at hOpened
  omega

/- The partner is the first closing parenthesis behind balanced tokens. -/
theorem matchingParen_eq_some_iff
    {c : Nat} :
    scan.matchingParen i = some c ↔
      IsLeast
        {j |
          i ≤ j ∧ Balanced (scan.between i j) ∧
            scan.ClosesAt j} c := by
  have hPartner :
      scan.matchingParen i = some c ↔
        i ≤ c ∧ Balanced (scan.between i c) ∧
          scan.ClosesAt c := by
    rw [← partnerAt_drop_iff]
    exact closeFrom_eq_some_iff
  rw [hPartner]
  refine ⟨fun hCloses => ⟨hCloses, ?_⟩, And.left⟩
  rintro j ⟨hOrder, hBalanced, hFirst⟩
  by_contra hBehind
  rw [Nat.not_le] at hBehind
  exact
    not_balanced_of_closesAt hOrder hBehind hBalanced.closed
      hFirst hCloses.2.1

------------------------------------------------------------
-- Tiles
------------------------------------------------------------

section Tiles

variable {cut : Nat → Prop} [DecidablePred cut]
variable {c : Nat} {ranges : List (Nat × Nat)}

/-
  Ranges follow each other from a start to an end.  Exactly
  one place lies between two neighbours, and it is a cut;
  there is no cut within a range.
-/
structure Tiles
    (cut : Nat → Prop)
    [DecidablePred cut]
    (start finish : Nat)
    (ranges : List (Nat × Nat)) : Prop where
  first : ranges.head?.map Prod.fst = some start
  last : ranges.getLast?.map Prod.snd = some finish
  next :
    ranges.IsChain fun r s => s.1 = r.2 + 1 ∧ cut r.2
  ordered :
    ∀ r ∈ ranges, start ≤ r.1 ∧ r.1 ≤ r.2 ∧ r.2 ≤ finish
  uncut : ∀ r ∈ ranges, ∀ i, r.1 ≤ i → i < r.2 → ¬cut i
  count :
    ranges.length =
      (List.range' start (finish - start)).countP
        (fun i => decide (cut i)) + 1

theorem countP_cut_eq_zero
    (hUncut : ∀ i, start ≤ i → i < finish → ¬cut i) :
    (List.range' start (finish - start)).countP
      (fun i => decide (cut i)) = 0 := by
  rw [List.countP_eq_zero]
  intro i hMember
  rw [List.mem_range'_1] at hMember
  simpa using hUncut i hMember.1 (by omega)

theorem tiles_single
    (hOrder : start ≤ finish)
    (hUncut : ∀ i, start ≤ i → i < finish → ¬cut i) :
    Tiles cut start finish [(start, finish)] where
  first := rfl
  last := rfl
  next := .singleton _
  ordered := by simpa using hOrder
  uncut := by simpa using hUncut
  count := by rw [countP_cut_eq_zero hUncut]; rfl

/- A cut is counted between those in front of it and those behind. -/
theorem countP_cut
    (hOrder : start ≤ c)
    (hWithin : c < finish)
    (hCut : cut c)
    (hUncut : ∀ i, start ≤ i → i < c → ¬cut i) :
    (List.range' start (finish - start)).countP
        (fun i => decide (cut i)) =
      (List.range' (c + 1) (finish - (c + 1))).countP
        (fun i => decide (cut i)) + 1 := by
  have hLength :
      finish - start = (c - start) + (finish - (c + 1) + 1) := by
    omega
  have hNext : start + 1 * (c - start) = c := by omega
  rw [hLength, ← List.range'_append, List.countP_append,
    countP_cut_eq_zero hUncut, hNext, List.range'_succ,
    List.countP_cons_of_pos (by simpa using hCut),
    Nat.zero_add]

/- A range up to a cut goes in front of those behind the cut. -/
theorem Tiles.cons
    (hTiles : Tiles cut (c + 1) finish ranges)
    (hOrder : start ≤ c)
    (hCut : cut c)
    (hUncut : ∀ i, start ≤ i → i < c → ¬cut i) :
    Tiles cut start finish ((start, c) :: ranges) := by
  rcases hTiles with
    ⟨hFirst, hLast, hNext, hOrdered, hOthers, hCount⟩
  cases ranges with
  | nil => cases hFirst
  | cons r ranges =>
      have hStart : r.1 = c + 1 := Option.some.inj hFirst
      have hWithin := hOrdered r List.mem_cons_self
      exact
        { first := rfl
          last := hLast
          next :=
            List.isChain_cons_cons.mpr ⟨⟨hStart, hCut⟩, hNext⟩
          ordered := by
            rw [List.forall_mem_cons]
            refine ⟨⟨Nat.le_refl _, hOrder, by omega⟩, ?_⟩
            intro s hMember
            have hBehind := hOrdered s hMember
            omega
          uncut := by
            rw [List.forall_mem_cons]
            exact ⟨hUncut, hOthers⟩
          count := by
            rw [List.length_cons, hCount,
              countP_cut hOrder (by omega) hCut hUncut] }

end Tiles

/- Within balanced tokens the depth that is kept is the level. -/
theorem depthAfter_eq_level
    (hLevel : (depth : Int) = level (scan.between base i))
    (hOrder : base ≤ i)
    (hAt : scan.tokens[i]? = some t)
    (hOpened : 0 ≤ level (scan.between base (i + 1))) :
    (depthAfter depth t.1 : Int) =
      level (scan.between base (i + 1)) := by
  rw [between_concat hOrder hAt, level_concat, ← hLevel]
    at hOpened ⊢
  by_cases hOpen : t.1 = .mark .openParen
  · rw [change_open hOpen, hOpen]
    rfl
  · by_cases hClose : t.1 = .mark .closeParen
    · rw [change_close hClose] at hOpened ⊢
      rw [hClose]
      change ((depth - 1 : Nat) : Int) = depth + -1
      omega
    · have hSame : depthAfter depth t.1 = depth := by
        unfold depthAfter
        split
        · contradiction
        · contradiction
        · rfl
      rw [change_plain hOpen hClose, hSame, Int.add_zero]

/- At the level that is kept, dividing is what the splitting asks of a token. -/
theorem divides_iff
    (hLevel : (depth : Int) = level (scan.between base i))
    (hAt : scan.tokens[i]? = some t) :
    scan.Divides base i ↔ depth = 0 ∧ t.1 = .mark .comma := by
  unfold Divides
  rw [hAt, Option.map_some, Option.some.injEq, ← hLevel,
    and_comm, Int.natCast_eq_zero]

/- The ranges that are left from an index on tile what is left. -/
theorem exists_tiles_splitFrom
    (hWithin : finish ≤ scan.tokens.length)
    (hBalanced : Balanced (scan.between base finish))
    (hBase : base ≤ start)
    (hOrder : start ≤ i)
    (hEnd : i + n = finish)
    (hLevel : (depth : Int) = level (scan.between base i))
    (hUncut : ∀ j, start ≤ j → j < i → ¬scan.Divides base j) :
    ∃ ranges,
      scan.splitFrom finish start depth i n = .ok ranges ∧
        Tiles (scan.Divides base) start finish ranges := by
  induction n generalizing i start depth with
  | zero =>
      have hSame : i = finish := hEnd
      subst hSame
      exact ⟨_, rfl, tiles_single hOrder hUncut⟩
  | succ n ih =>
      have hBound : i < scan.tokens.length := by omega
      have hAt := List.getElem?_eq_getElem hBound
      have hOpened :=
        hBalanced.opened _
          (between_isPrefix (show i + 1 ≤ finish by omega))
      have hNext :=
        depthAfter_eq_level hLevel (by omega) hAt hOpened
      rw [splitFrom, tokenAt_eq_ok_iff.mpr hAt, ok_bind]
      generalize scan.tokens[i] = t at hAt hNext ⊢
      have hDivides := divides_iff hLevel hAt
      split
      · rename_i hHere
        have hCut := hDivides.mpr hHere
        have hSameDepth : depthAfter depth t.1 = depth := by
          rw [hHere.2]
          rfl
        rw [hSameDepth] at hNext
        rcases ih (by omega) (Nat.le_refl (i + 1)) (by omega)
            hNext (fun j hLow hHigh => by omega) with
          ⟨ranges, hRanges, hTiles⟩
        refine ⟨(start, i) :: ranges, ?_,
          hTiles.cons hOrder hCut hUncut⟩
        rw [hRanges]
        rfl
      · rename_i hInside
        rw [← hDivides] at hInside
        refine ih hBase (by omega) (by omega) hNext ?_
        intro j hLow hHigh
        rcases Nat.lt_succ_iff_lt_or_eq.mp hHigh with
          hBefore | rfl
        · exact hUncut j hLow hBefore
        · exact hInside

/- The ranges between the commas of balanced tokens tile their range. -/
theorem exists_tiles
    (hOrder : start ≤ finish)
    (hWithin : finish ≤ scan.tokens.length)
    (hBalanced : Balanced (scan.between start finish)) :
    ∃ ranges,
      scan.splitTopLevel start finish = .ok ranges ∧
        Tiles (scan.Divides start) start finish ranges := by
  apply exists_tiles_splitFrom hWithin hBalanced
    (Nat.le_refl start) (Nat.le_refl start) (by omega)
  · rw [between_self]
    rfl
  · intro j hLow hHigh
    omega

/-
  The ranges between the outer commas of balanced tokens tile
  their range, and the parenthesis that is found is the first
  one that closes nothing behind balanced tokens.  For a scan
  of lexemes these are the pieces that are read, and the split
  at that parenthesis.
-/
theorem ranges_tile (scan : Scan) :
    (∀ start finish,
      start ≤ finish →
      finish ≤ scan.tokens.length →
      Balanced (scan.between start finish) →
      ∃ ranges,
        scan.splitTopLevel start finish = .ok ranges ∧
          Tiles (scan.Divides start) start finish ranges ∧
            ∀ ls, scan.Holds ls →
              splitCommas 0 (stretch start finish ls) =
                ranges.map fun r => stretch r.1 r.2 ls) ∧
      ∀ i,
        (∀ c,
          scan.matchingParen i = some c ↔
            IsLeast
              {j |
                i ≤ j ∧ Balanced (scan.between i j) ∧
                  scan.ClosesAt j} c) ∧
          ∀ ls, scan.Holds ls →
            (splitAtClose 0 (ls.drop i)).map
                (fun parts => i + parts.1.length) =
              scan.matchingParen i := by
  refine ⟨?_, fun i => ⟨fun c => matchingParen_eq_some_iff,
    fun ls hScan => (matchingParen_eq hScan i).symm⟩⟩
  intro start finish hOrder hWithin hBalanced
  rcases exists_tiles hOrder hWithin hBalanced with
    ⟨ranges, hRanges, hTiles⟩
  refine ⟨ranges, hRanges, hTiles, fun ls hScan => ?_⟩
  have hLength := length_tokens hScan
  rcases splitTopLevel_eq hScan hOrder (by omega) with
    ⟨found, hFound, _, hPieces⟩
  rw [hRanges] at hFound
  cases hFound
  exact hPieces.symm

/- The comma between the arguments of a type divides no column definitions. -/
theorem type_arguments_stay_together :
    let text := "a INT, b DECIMAL(10,2), c".toList
    let scan : Scan :=
      { text := text, tokens := Lexer.spannedTokens text }
    let ranges := [(0, 2), (3, 10), (11, 12)]
    12 ≤ scan.tokens.length ∧
      Balanced (scan.between 0 12) ∧
        scan.splitTopLevel 0 12 = .ok ranges ∧
          Tiles (scan.Divides 0) 0 12 ranges := by
  intro text scan ranges
  have hWithin : 12 ≤ scan.tokens.length := by
    decide +kernel
  have hBalanced : Balanced (scan.between 0 12) := by
    decide +kernel
  have hRanges : scan.splitTopLevel 0 12 = .ok ranges := by
    decide +kernel
  rcases (ranges_tile scan).1 0 12 (by decide) hWithin
      hBalanced with
    ⟨found, hFound, hTiles, _⟩
  rw [hRanges] at hFound
  cases hFound
  exact ⟨hWithin, hBalanced, hRanges, hTiles⟩

end Scan

end Rowstore
