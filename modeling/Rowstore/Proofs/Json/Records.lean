import Mathlib.Data.List.Basic
import Mathlib.Data.List.Forall2
import Rowstore.Json.Record
import Rowstore.Proofs.Json.Reading

/-
  What is taken from the documents that records, lists and
  whole amounts are written as.

  Main declarations:
    * `Json.proper_ofMembers`
    * `Json.fields?_ofMembers`
    * `Json.forall₂_of_mapM` and `Json.forall₂_of_list?`
    * `Json.list?_array_map`
    * `Json.natUpTo?_ofNat` and `Json.eq_of_natUpTo?_ofNat`
-/

namespace Rowstore

namespace Json

------------------------------------------------------------
-- Documents That Can Be Written
------------------------------------------------------------

theorem proper_ofNat (n : Nat) : (ofNat n).Proper :=
  Numeral.proper_ofNat n

theorem proper_ofText (s : String) : (ofText s).Proper :=
  isBody_escape s.toList

theorem proper_ofFloat (x : Float) : (ofFloat x).Proper := by
  unfold ofFloat
  split
  · exact Numeral.proper_ofDecimal
      Decimal.exponent_shortest_of_digits_eq_zero
  · trivial

theorem proper_array
    {items : List Json}
    (hItems : ∀ v ∈ items, v.Proper) :
    (array items).Proper :=
  (properItems_iff items).mpr hItems

theorem proper_ofMembers
    {members : List (String × Json)}
    (hMembers : ∀ m ∈ members, m.2.Proper) :
    (ofMembers members).Proper := by
  apply (properMembers_iff _).mpr
  rw [List.forall_mem_map]
  intro m hMem
  exact ⟨isBody_escape m.1.toList, hMembers m hMem⟩

------------------------------------------------------------
-- Records
------------------------------------------------------------

theorem keyed?_escape (members : List (String × Json)) :
    keyed? (members.map fun (k, v) => (escape k.toList, v)) =
      some members := by
  induction members with
  | nil => rfl
  | cons m members ih =>
      rcases m with ⟨k, v⟩
      simp [keyed?, unescape_escape, ih]

theorem valuesOf_eq_nil
    {name : String}
    {members : List (String × Json)}
    (hNone : name ∉ members.map Prod.fst) :
    valuesOf name members = [] := by
  unfold valuesOf
  rw [List.filterMap_eq_nil_iff]
  intro m hMem
  have hOther : m.1 ≠ name := by
    rintro rfl
    exact hNone (List.mem_map_of_mem hMem)
  exact if_neg hOther

/- A key that comes once has one value. -/
theorem single?_valuesOf
    (name : String)
    {members : List (String × Json)}
    (hDistinct : (members.map Prod.fst).Nodup) :
    single? (valuesOf name members) =
      some (members.lookup name) := by
  induction members with
  | nil => rfl
  | cons m members ih =>
      rcases m with ⟨k, v⟩
      rw [List.map_cons, List.nodup_cons] at hDistinct
      rcases hDistinct with ⟨hNew, hRest⟩
      have hStep :
          valuesOf name ((k, v) :: members) =
            if k = name then v :: valuesOf name members
            else valuesOf name members := by
        by_cases hKey : k = name
        · simp [valuesOf, hKey]
        · simp [valuesOf, hKey]
      rw [hStep]
      by_cases hKey : k = name
      · subst hKey
        rw [if_pos rfl, valuesOf_eq_nil hNew]
        simp [single?]
      · have hOther : (name == k) = false := by
          simpa using fun h : name = k => hKey h.symm
        rw [if_neg hKey, ih hRest, List.lookup_cons, hOther]

/- The fields of a written record are its members. -/
theorem fields?_ofMembers
    (names : List String)
    {members : List (String × Json)}
    (hDistinct : (members.map Prod.fst).Nodup) :
    fields? names (ofMembers members) =
      some (names.map fun name => members.lookup name) := by
  simp only [fields?, ofMembers, keyed?_escape,
    Option.bind_eq_bind, Option.bind_some,
    single?_valuesOf _ hDistinct]
  exact List.mapM_pure

@[simp]
theorem place_zero
    (field : Option Json)
    (fields : List (Option Json)) :
    place (field :: fields) 0 = field := by
  simp [place]

@[simp]
theorem place_succ
    (field : Option Json)
    (fields : List (Option Json))
    (i : Nat) :
    place (field :: fields) (i + 1) = place fields i := by
  simp [place]

@[simp]
theorem required?_some
    {α : Type}
    (decode : Json → Option α)
    (j : Json) :
    required? decode (some j) = decode j := rfl

@[simp]
theorem withDefault?_some
    {α : Type}
    (decode : Json → Option α)
    (value : α)
    (j : Json) :
    withDefault? decode value (some j) = decode j := rfl

------------------------------------------------------------
-- Lists And Amounts
------------------------------------------------------------

/- What is read one by one has a part for each document. -/
theorem forall₂_of_mapM
    {α γ : Type}
    {decode : α → Option γ}
    {xs : List α}
    {ys : List γ}
    (hRead : xs.mapM decode = some ys) :
    List.Forall₂ (fun x y => decode x = some y) xs ys := by
  induction xs generalizing ys with
  | nil =>
      cases hRead
      exact .nil
  | cons x xs ih =>
      rw [List.mapM_cons] at hRead
      rcases Option.bind_eq_some_iff.mp hRead with
        ⟨y, hFirst, hRead⟩
      rcases Option.bind_eq_some_iff.mp hRead with
        ⟨ys', hRest, hDone⟩
      cases hDone
      exact .cons hFirst (ih hRest)

/- Each part that is read comes from a document. -/
theorem exists_mem_of_forall₂
    {α γ : Type}
    {R : α → γ → Prop}
    {xs : List α}
    {ys : List γ}
    (hAll : List.Forall₂ R xs ys)
    {y : γ}
    (hMem : y ∈ ys) :
    ∃ x ∈ xs, R x y := by
  induction hAll with
  | nil => cases hMem
  | cons hFirst hRest ih =>
      rcases List.mem_cons.mp hMem with rfl | hMem
      · exact ⟨_, List.mem_cons_self, hFirst⟩
      · rcases ih hMem with ⟨x, hOld, hPair⟩
        exact ⟨x, List.mem_cons_of_mem _ hOld, hPair⟩

/- Features that the parts keep come in the same order. -/
theorem map_eq_of_forall₂
    {α γ δ : Type}
    {R : α → γ → Prop}
    {f : α → δ}
    {g : γ → δ}
    (hKept : ∀ x y, R x y → f x = g y)
    {xs : List α}
    {ys : List γ}
    (hAll : List.Forall₂ R xs ys) :
    xs.map f = ys.map g := by
  rw [← List.forall₂_eq_eq_eq, List.forall₂_map_left_iff,
    List.forall₂_map_right_iff]
  exact hAll.imp hKept

theorem forall₂_of_list?
    {α γ : Type}
    {encode : α → Json}
    {decode : Json → Option γ}
    {xs : List α}
    {ys : List γ}
    (hList : list? decode (array (xs.map encode)) = some ys) :
    List.Forall₂
      (fun x y => decode (encode x) = some y) xs ys :=
  List.forall₂_map_left_iff.mp (forall₂_of_mapM hList)

/- A list is read as it was written if each of its parts is. -/
theorem list?_array_map
    {α : Type}
    {encode : α → Json}
    {decode : Json → Option α}
    {xs : List α}
    (hEach : ∀ x ∈ xs, decode (encode x) = some x) :
    list? decode (array (xs.map encode)) = some xs := by
  have hAll :
      (xs.map encode).mapM decode = some xs := by
    induction xs with
    | nil => rfl
    | cons x xs ih =>
        rw [List.forall_mem_cons] at hEach
        rw [List.map_cons, List.mapM_cons, hEach.1, ih hEach.2]
        rfl
  exact hAll

/- An amount is read as it was written, if it is within the limit. -/
theorem natUpTo?_ofNat_eq
    (limit n : Nat) :
    natUpTo? limit (ofNat n) =
      if limit < n then none else some n := by
  simp [natUpTo?, ofNat, Decimal.digitsValue_digitsText]

theorem natUpTo?_ofNat
    {limit n : Nat}
    (hFits : n ≤ limit) :
    natUpTo? limit (ofNat n) = some n := by
  rw [natUpTo?_ofNat_eq, if_neg (Nat.not_lt.mpr hFits)]

/- An amount that is read is the one that was written. -/
theorem eq_of_natUpTo?_ofNat
    {limit n m : Nat}
    (hAmount : natUpTo? limit (ofNat n) = some m) :
    m = n := by
  rw [natUpTo?_ofNat_eq] at hAmount
  split at hAmount
  · cases hAmount
  · cases hAmount
    rfl

end Json

end Rowstore
