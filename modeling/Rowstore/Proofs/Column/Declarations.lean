import Rowstore.Column.Basic
import Rowstore.Proofs.Decimal.Digits
import Rowstore.Proofs.Json.Records
import Rowstore.Proofs.Text.Raising
import Rowstore.Proofs.Text.Trimming

/-
  The grammar of type declarations.

  A declaration is a word, or a word and a list of one or two
  arguments in parentheses.  The reader looks for the first
  parenthesis, cuts off the last character, divides what is
  between at the commas and trims each piece.  For every text
  this accepts what the grammar derives and nothing else, and
  the type that is read is what the word and the arguments
  stand for.

  Main declarations:
    * `BaseType.Named` and `BaseType.ofKeyword_eq_iff`
    * `DeclaredType.ArgumentText` and
      `DeclaredType.argument?_eq_some_iff`
    * `DeclaredType.Spells` and `DeclaredType.spells_iff`
    * `DeclaredType.Sized`
    * `DeclaredType.parse_accepts_spelled`
-/

------------------------------------------------------------
-- Type Words
------------------------------------------------------------

namespace Rowstore

namespace BaseType

/-
  A word names a base type if it is one of its keywords up to
  letter case; a word that is no keyword names text.
-/
inductive Named
    (word : List Char) : BaseType → Prop where
| keyword
    {keyword : String}
    {base : BaseType}
    (hListed : (keyword, base) ∈ keywords)
    (hSame : Text.sameLetters word keyword.toList = true) :
    Named word base
| other
    (hNone :
      ∀ entry ∈ keywords,
        Text.sameLetters word entry.1.toList = false) :
    Named word text

/- Keywords are listed in capitals. -/
theorem upperBasic_keyword :
    ∀ entry ∈ keywords,
      Text.upperBasic entry.1.toList = entry.1.toList := by
  decide +kernel

/- The capitals of a word are a keyword if the word is the keyword up to letter case. -/
theorem upperBasic_eq_iff
    {entry : String × BaseType}
    (hListed : entry ∈ keywords)
    (word : List Char) :
    String.ofList (Text.upperBasic word) = entry.1 ↔
      Text.sameLetters word entry.1.toList = true := by
  have hCapitals := upperBasic_keyword entry hListed
  rw [Text.sameLetters_iff]
  constructor
  · intro hWord
    rw [← hWord, String.toList_ofList,
      Text.lowerBasic_upperBasic]
  · intro hSame
    have hWord := congrArg Text.upperBasic hSame
    rw [Text.upperBasic_lowerBasic, Text.upperBasic_lowerBasic,
      hCapitals] at hWord
    rw [hWord, String.ofList_toList]

/- No keyword is listed twice, so each stands for the base type that it is listed with. -/
theorem lookup_keyword :
    ∀ entry ∈ keywords,
      keywords.lookup entry.1 = some entry.2 := by
  decide +kernel

theorem ofKeyword_of_mem
    {entry : String × BaseType}
    (hListed : entry ∈ keywords)
    {word : List Char}
    (hSame : Text.sameLetters word entry.1.toList = true) :
    ofKeyword word = entry.2 := by
  unfold ofKeyword
  rw [(upperBasic_eq_iff hListed word).mpr hSame,
    lookup_keyword entry hListed, Option.getD_some]

theorem ofKeyword_of_forall
    {word : List Char}
    (hNone :
      ∀ entry ∈ keywords,
        Text.sameLetters word entry.1.toList = false) :
    ofKeyword word = text := by
  have hAbsent :
      keywords.lookup
        (String.ofList (Text.upperBasic word)) = none := by
    rw [List.lookup_eq_none_iff]
    intro entry hListed
    rw [bne_iff_ne]
    intro hWord
    have hSame := (upperBasic_eq_iff hListed word).mp hWord
    rw [hNone entry hListed] at hSame
    cases hSame
  unfold ofKeyword
  rw [hAbsent, Option.getD_none]

/- The base type that is looked up for a word is the one that the word names. -/
theorem ofKeyword_eq_iff
    (word : List Char)
    (base : BaseType) :
    ofKeyword word = base ↔ Named word base := by
  constructor
  · rintro rfl
    by_cases hNone :
        ∀ entry ∈ keywords,
          Text.sameLetters word entry.1.toList = false
    · rw [ofKeyword_of_forall hNone]
      exact .other hNone
    · simp only [not_forall, Bool.not_eq_false] at hNone
      rcases hNone with ⟨entry, hListed, hSame⟩
      rw [ofKeyword_of_mem hListed hSame]
      exact .keyword hListed hSame
  · intro hNamed
    cases hNamed with
    | keyword hListed hSame =>
        exact ofKeyword_of_mem hListed hSame
    | other hNone => exact ofKeyword_of_forall hNone

end BaseType

end Rowstore

------------------------------------------------------------
-- Arguments
------------------------------------------------------------

namespace Rowstore

namespace DeclaredType

variable {s t : List Char} {n m : Nat}

/- Digits with an optional plus sign between blanks, and the number they stand for. -/
inductive ArgumentText : List Char → Nat → Prop where
| digits
    {before sign digits after : List Char}
    (hBefore : ∀ c ∈ before, Text.isBlank c = true)
    (hSign : sign = [] ∨ sign = ['+'])
    (hSome : digits ≠ [])
    (hDigits : ∀ c ∈ digits, Decimal.isDigit c = true)
    (hFits : Decimal.digitsValue digits ≤ maxArgument)
    (hAfter : ∀ c ∈ after, Text.isBlank c = true) :
    ArgumentText (before ++ (sign ++ digits) ++ after)
      (Decimal.digitsValue digits)

/- A sign and digits are neither blanks nor marks of the list. -/
theorem forall_signed
    {P : Char → Prop}
    (hPlus : P '+')
    (hDigit : ∀ c, Decimal.isDigit c = true → P c)
    {sign digits : List Char}
    (hSign : sign = [] ∨ sign = ['+'])
    (hDigits : ∀ c ∈ digits, Decimal.isDigit c = true) :
    ∀ c ∈ sign ++ digits, P c := by
  intro c hMember
  rcases List.mem_append.mp hMember with hMember | hMember
  · rcases hSign with rfl | rfl
    · cases hMember
    · rw [List.mem_singleton.mp hMember]
      exact hPlus
  · exact hDigit c (hDigits c hMember)

/- What is left of an argument when its blanks are cut off. -/
theorem argument?_of_trim
    {sign digits : List Char}
    (hSign : sign = [] ∨ sign = ['+'])
    (hFirst : sign = [] → digits.head? ≠ some '+')
    (hTrim : Text.trim s = sign ++ digits) :
    argument? s = some n ↔
      digits ≠ [] ∧
        (∀ c ∈ digits, Decimal.isDigit c = true) ∧
          Decimal.digitsValue digits ≤ maxArgument ∧
            Decimal.digitsValue digits = n := by
  have hArgument :
      argument? s =
        if digits.isEmpty || !digits.all Decimal.isDigit ||
            maxArgument < Decimal.digitsValue digits then
          none
        else some (Decimal.digitsValue digits) := by
    unfold argument?
    rw [hTrim]
    rcases hSign with rfl | rfl
    · rw [List.nil_append]
      dsimp only
      split
      · exact absurd rfl (hFirst rfl)
      · rfl
    · rfl
  rw [hArgument]
  simp [and_assoc]

/- The text of an argument, between its blanks, starts with a plus sign or does not. -/
theorem exists_signed (t : List Char) :
    ∃ sign digits : List Char,
      (sign = [] ∨ sign = ['+']) ∧
        (sign = [] → digits.head? ≠ some '+') ∧
          t = sign ++ digits := by
  by_cases hPlus : t.head? = some '+'
  · rcases List.head?_eq_some_iff.mp hPlus with ⟨u, rfl⟩
    exact ⟨['+'], u, .inr rfl, by simp, rfl⟩
  · exact ⟨[], t, .inl rfl, fun _ => hPlus, rfl⟩

theorem argument?_eq_some_iff :
    argument? s = some n ↔ ArgumentText s n := by
  constructor
  · intro hArgument
    rcases exists_signed (Text.trim s) with
      ⟨sign, digits, hSign, hFirst, hTrim⟩
    rw [argument?_of_trim hSign hFirst hTrim] at hArgument
    rcases hArgument with ⟨hSome, hDigits, hFits, rfl⟩
    rcases Text.trim_split s with
      ⟨before, after, hSplit, hBefore, hAfter⟩
    rw [hSplit, hTrim]
    exact .digits hBefore hSign hSome hDigits hFits hAfter
  · rintro ⟨hBefore, hSign, hSome, hDigits, hFits, hAfter⟩
    rename_i before sign digits after
    have hTight : Text.Tight (sign ++ digits) :=
      Text.tight_of_forall
        (forall_signed (by decide)
          (fun c hDigit => Decimal.isBlank_of_isDigit hDigit)
          hSign hDigits)
    have hTrim :
        Text.trim (before ++ (sign ++ digits) ++ after) =
          sign ++ digits :=
      Text.trim_padded hBefore hTight
        (List.append_ne_nil_of_right_ne_nil _ hSome) hAfter
    have hFirst : sign = [] → digits.head? ≠ some '+' := by
      intro _ hPlus
      have hDigit :=
        hDigits '+' (List.mem_of_mem_head? hPlus)
      revert hDigit
      decide
    rw [argument?_of_trim hSign hFirst hTrim]
    exact ⟨hSome, hDigits, hFits, rfl⟩

theorem not_mem_of_argumentText
    {mark : Char}
    (hBlank : Text.isBlank mark = false)
    (hDigit : Decimal.isDigit mark = false)
    (hPlus : mark ≠ '+')
    (hArgument : ArgumentText s n) :
    mark ∉ s := by
  rcases hArgument with
    ⟨hBefore, hSign, _, hDigits, _, hAfter⟩
  have hOther :
      ∀ c, Text.isBlank c = true → c ≠ mark := by
    rintro c hSpace rfl
    rw [hSpace] at hBlank
    cases hBlank
  have hInside :=
    forall_signed (P := fun c => c ≠ mark) hPlus.symm
      (fun c hNumber => Decimal.ne_of_isDigit hNumber hDigit)
      hSign hDigits
  intro hMember
  simp only [List.mem_append] at hMember hInside
  rcases hMember with (hMember | hMember) | hMember
  · exact hOther mark (hBefore mark hMember) rfl
  · exact hInside mark hMember rfl
  · exact hOther mark (hAfter mark hMember) rfl

------------------------------------------------------------
-- Lists Of Arguments
------------------------------------------------------------

theorem splitCommas_of_not_mem
    (hNone : ',' ∉ s) :
    splitCommas s = [s] := by
  induction s with
  | nil => rfl
  | cons c s ih =>
      rw [List.mem_cons, not_or] at hNone
      rw [splitCommas, if_neg (Ne.symm hNone.1), ih hNone.2]

theorem splitCommas_append
    (hNone : ',' ∉ s)
    (rest : List Char) :
    splitCommas (s ++ ',' :: rest) =
      s :: splitCommas rest := by
  induction s with
  | nil => rw [List.nil_append, splitCommas, if_pos rfl]
  | cons c s ih =>
      rw [List.mem_cons, not_or] at hNone
      rw [List.cons_append, splitCommas,
        if_neg (Ne.symm hNone.1), ih hNone.2]

theorem splitCommas_ne_nil (s : List Char) :
    splitCommas s ≠ [] := by
  by_cases hComma : ',' ∈ s
  · rcases List.eq_append_cons_of_mem hComma with
      ⟨first, rest, rfl, hNone⟩
    rw [splitCommas_append hNone]
    exact List.cons_ne_nil _ _
  · rw [splitCommas_of_not_mem hComma]
    exact List.cons_ne_nil _ _

/- One argument, or two with a comma between them. -/
inductive ArgumentList : List Char → List Nat → Prop where
| one
    {s : List Char}
    {n : Nat}
    (hArgument : ArgumentText s n) :
    ArgumentList s [n]
| two
    {s t : List Char}
    {n m : Nat}
    (hFirst : ArgumentText s n)
    (hSecond : ArgumentText t m) :
    ArgumentList (s ++ ',' :: t) [n, m]

/- The pieces between the commas are arguments, two at most. -/
theorem argumentList_iff
    {arguments : List Nat} :
    ArgumentList s arguments ↔
      (splitCommas s).mapM argument? = some arguments ∧
        arguments.length ≤ 2 := by
  have hNoComma :
      ∀ {s n}, ArgumentText s n → ',' ∉ s :=
    not_mem_of_argumentText (by decide) (by decide) (by decide)
  constructor
  · intro hList
    cases hList with
    | one hArgument =>
        rw [splitCommas_of_not_mem (hNoComma hArgument)]
        rw [← argument?_eq_some_iff] at hArgument
        simp [hArgument]
    | two hFirst hSecond =>
        rw [splitCommas_append (hNoComma hFirst),
          splitCommas_of_not_mem (hNoComma hSecond)]
        rw [← argument?_eq_some_iff] at hFirst hSecond
        simp [hFirst, hSecond]
  · rintro ⟨hRead, hFew⟩
    have hEach := Json.forall₂_of_mapM hRead
    by_cases hComma : ',' ∈ s
    · rcases List.eq_append_cons_of_mem hComma with
        ⟨first, rest, rfl, hNone⟩
      rw [splitCommas_append hNone] at hEach
      rcases List.forall₂_cons_left_iff.mp hEach with
        ⟨n, others, hFirst, hOthers, rfl⟩
      -- A second comma would leave a third argument.
      have hLast : ',' ∉ rest := by
        intro hComma
        rcases List.eq_append_cons_of_mem hComma with
          ⟨second, rest, rfl, hNone⟩
        rw [splitCommas_append hNone] at hOthers
        have hLength := hOthers.length_eq
        have hPositive :=
          List.length_pos_of_ne_nil (splitCommas_ne_nil rest)
        simp only [List.length_cons] at hLength hFew
        omega
      rw [splitCommas_of_not_mem hLast] at hOthers
      rcases List.forall₂_cons_left_iff.mp hOthers with
        ⟨m, none, hSecond, hEnd, rfl⟩
      cases hEnd
      exact
        .two (argument?_eq_some_iff.mp hFirst)
          (argument?_eq_some_iff.mp hSecond)
    · rw [splitCommas_of_not_mem hComma] at hEach
      rcases List.forall₂_cons_left_iff.mp hEach with
        ⟨n, none, hOnly, hEnd, rfl⟩
      cases hEnd
      exact .one (argument?_eq_some_iff.mp hOnly)

------------------------------------------------------------
-- Declarations
------------------------------------------------------------

variable {word head inner rest : List Char}
variable {arguments : List Nat}

/- A word, or a word and a list of arguments in parentheses, which may stand apart. -/
inductive Spells :
    List Char → List Char → List Nat → Prop where
| word
    {word : List Char}
    (hWord : isWord word = true) :
    Spells word word []
| list
    {word gap inner : List Char}
    {arguments : List Nat}
    (hWord : isWord word = true)
    (hGap : ∀ c ∈ gap, Text.isBlank c = true)
    (hList : ArgumentList inner arguments) :
    Spells (word ++ gap ++ '(' :: (inner ++ [')'])) word
      arguments

theorem parts?_of_not_mem
    (hNone : '(' ∉ head) :
    parts? head = some (head, []) := by
  have hAll : ∀ c ∈ head, (c != '(') = true := by
    intro c hMember
    rw [bne_iff_ne]
    rintro rfl
    exact hNone hMember
  have hWord := List.takeWhile_eq_self_iff.mpr hAll
  have hRest := List.dropWhile_eq_nil_iff.mpr hAll
  unfold parts?
  simp only [hWord, hRest]

theorem parts?_append
    (hNone : '(' ∉ head) :
    parts? (head ++ '(' :: rest) =
      if rest.getLast? = some ')' then
        ((splitCommas rest.dropLast).mapM argument?).map
          fun arguments => (Text.trimEnd head, arguments)
      else none := by
  have hAll : ∀ c ∈ head, (c != '(') = true := by
    intro c hMember
    rw [bne_iff_ne]
    rintro rfl
    exact hNone hMember
  have hWord :
      (head ++ '(' :: rest).takeWhile (fun c => c != '(') =
        head := by
    rw [List.takeWhile_append_of_pos hAll]
    simp
  have hRest :
      (head ++ '(' :: rest).dropWhile (fun c => c != '(') =
        '(' :: rest := by
    rw [List.dropWhile_append_of_pos hAll]
    simp
  unfold parts?
  simp only [hWord, hRest]
  split
  · cases (splitCommas rest.dropLast).mapM argument? <;> rfl
  · rfl

theorem isBlank_of_isWordPart
    {c : Char}
    (hPart : (c.isAlphanum || c == '_') = true) :
    Text.isBlank c = false ∧ c ≠ '(' := by
  have hCode : c.val.toNat = c.toNat := rfl
  have hLetter :
      c.isAlpha =
        (decide (65 ≤ c.val ∧ c.val ≤ 90) ||
          decide (97 ≤ c.val) && decide (c.val ≤ 122)) := rfl
  constructor
  · rw [Bool.eq_false_iff]
    intro hBlank
    simp [Text.isBlank, Text.blankRanges, Char.isAlphanum,
      hLetter, Char.isDigit, UInt32.le_iff_toNat_le,
      ← Char.toNat_inj] at hBlank hPart
    omega
  · rintro rfl
    revert hPart
    decide

/- A word has neither blanks nor parentheses, and at least one character. -/
theorem forall_of_isWord
    (hWord : isWord word = true) :
    word ≠ [] ∧
      ∀ c ∈ word, Text.isBlank c = false ∧ c ≠ '(' := by
  cases word with
  | nil => cases hWord
  | cons c s =>
      refine ⟨List.cons_ne_nil c s, ?_⟩
      unfold isWord at hWord
      rw [Bool.and_eq_true, List.all_eq_true] at hWord
      rw [List.forall_mem_cons]
      constructor
      · apply isBlank_of_isWordPart
        rw [Char.isAlphanum, Bool.or_right_comm, hWord.1,
          Bool.true_or]
      · exact fun d hMember =>
          isBlank_of_isWordPart (hWord.2 d hMember)

/- The parts that are read are those of the grammar. -/
theorem spells_iff :
    Spells s word arguments ↔
      parts? s = some (word, arguments) ∧
        isWord word = true ∧ arguments.length ≤ 2 := by
  constructor
  · intro hSpells
    cases hSpells with
    | word hWord =>
        have hNone : '(' ∉ s := fun hMember =>
          ((forall_of_isWord hWord).2 '(' hMember).2 rfl
        exact ⟨parts?_of_not_mem hNone, hWord, by simp⟩
    | list hWord hGap hList =>
        rename_i gap inner
        rcases forall_of_isWord hWord with ⟨hSome, hInside⟩
        rcases argumentList_iff.mp hList with ⟨hRead, hFew⟩
        have hNone : '(' ∉ word ++ gap := by
          intro hMember
          rcases List.mem_append.mp hMember with
            hMember | hMember
          · exact (hInside '(' hMember).2 rfl
          · exact absurd (hGap '(' hMember) (by decide)
        have hTrim : Text.trimEnd (word ++ gap) = word := by
          rw [Text.trimEnd_append hGap]
          exact
            Text.dropEndWhile_of_getLast? fun c hLast =>
              (hInside c
                (List.mem_of_mem_getLast? hLast)).1
        refine ⟨?_, hWord, hFew⟩
        rw [parts?_append hNone, List.getLast?_concat,
          if_pos rfl, List.dropLast_concat, hRead, hTrim]
        rfl
  · rintro ⟨hParts, hWord, hFew⟩
    by_cases hParen : '(' ∈ s
    · rcases List.eq_append_cons_of_mem hParen with
        ⟨head, rest, rfl, hNone⟩
      rw [parts?_append hNone] at hParts
      split at hParts
      · rename_i hLast
        rcases Option.map_eq_some_iff.mp hParts with
          ⟨_, hRead, hDone⟩
        cases hDone
        rcases Text.dropEndWhile_split Text.isBlank head with
          ⟨gap, hSplit, hGap⟩
        have hText :
            head ++ '(' :: rest =
              Text.trimEnd head ++ gap ++
                '(' :: (rest.dropLast ++ [')']) := by
          rw [List.dropLast_append_getLast? ')' hLast]
          exact congrArg (· ++ '(' :: rest) hSplit
        rw [hText]
        exact
          .list hWord hGap (argumentList_iff.mpr ⟨hRead, hFew⟩)
      · cases hParts
    · rw [parts?_of_not_mem hParen] at hParts
      cases hParts
      exact .word hWord

------------------------------------------------------------
-- What Arguments Stand For
------------------------------------------------------------

/-
  One argument is a length for text and a precision for other
  types; two are a precision and a scale, which text drops.
  All other sizes are absent.
-/
inductive Sized
    (base : BaseType) :
    List Nat → (length precision scale : Option Nat) → Prop where
| unsized :
    Sized base [] none none none
| length
    (hText : base = .text)
    (n : Nat) :
    Sized base [n] (some n) none none
| precision
    (hOther : base ≠ .text)
    (n : Nat) :
    Sized base [n] none (some n) none
| dropped
    (hText : base = .text)
    (n m : Nat) :
    Sized base [n, m] none none none
| scaled
    (hOther : base ≠ .text)
    (n m : Nat) :
    Sized base [n, m] none (some n) (some m)

theorem Sized.length_le
    {base : BaseType}
    {length precision scale : Option Nat}
    (hSized : Sized base arguments length precision scale) :
    arguments.length ≤ 2 := by
  cases hSized <;> simp

/- The type has a spelling, a base type, and the sizes that arguments stand for. -/
structure Stands
    (type : DeclaredType)
    (spelling : List Char)
    (word : List Char)
    (arguments : List Nat) : Prop where
  spelling : type.spelling = String.ofList spelling
  base : BaseType.Named word type.base
  sizes :
    Sized type.base arguments type.length type.precision
      type.scale

theorem ofArguments?_eq_some_iff
    {spelling : String}
    {base : BaseType}
    {type : DeclaredType} :
    ofArguments? spelling base arguments = some type ↔
      type.spelling = spelling ∧ type.base = base ∧
        Sized base arguments type.length type.precision
          type.scale := by
  constructor
  · intro hType
    rcases arguments with _ | ⟨n, _ | ⟨m, _ | _⟩⟩
    · cases hType
      exact ⟨rfl, rfl, .unsized⟩
    · simp only [ofArguments?] at hType
      split at hType
      · rename_i hText
        cases hType
        exact ⟨rfl, rfl, .length hText n⟩
      · rename_i hOther
        cases hType
        exact ⟨rfl, rfl, .precision hOther n⟩
    · simp only [ofArguments?] at hType
      split at hType
      · rename_i hText
        cases hType
        exact ⟨rfl, rfl, .dropped hText n m⟩
      · rename_i hOther
        cases hType
        exact ⟨rfl, rfl, .scaled hOther n m⟩
    · cases hType
  · rcases type with ⟨own, ownBase, length, precision, scale⟩
    rintro ⟨rfl, rfl, hSized⟩
    cases hSized with
    | unsized => rfl
    | length hText n => exact if_pos hText
    | precision hOther n => exact if_neg hOther
    | dropped hText n m => exact if_pos hText
    | scaled hOther n m => exact if_neg hOther

/- Arguments stand for something unless there are more than two. -/
theorem exists_sized
    (base : BaseType)
    (hFew : arguments.length ≤ 2) :
    ∃ length precision scale,
      Sized base arguments length precision scale := by
  rcases arguments with _ | ⟨n, _ | ⟨m, _ | _⟩⟩
  · exact ⟨_, _, _, .unsized⟩
  · by_cases hText : base = .text
    · exact ⟨_, _, _, .length hText n⟩
    · exact ⟨_, _, _, .precision hText n⟩
  · by_cases hText : base = .text
    · exact ⟨_, _, _, .dropped hText n m⟩
    · exact ⟨_, _, _, .scaled hText n m⟩
  · simp at hFew

theorem parse_eq_some_iff
    {text : String}
    {type : DeclaredType} :
    parse text = some type ↔
      ∃ word arguments,
        Spells (Text.trim text.toList) word arguments ∧
          type.Stands (Text.trim text.toList) word
            arguments := by
  constructor
  · intro hType
    rcases Option.bind_eq_some_iff.mp hType with
      ⟨⟨word, arguments⟩, hParts, hType⟩
    dsimp only at hType
    split at hType
    · rename_i hWord
      rcases ofArguments?_eq_some_iff.mp hType with
        ⟨hSpelling, hBase, hSized⟩
      refine
        ⟨word, arguments,
          spells_iff.mpr ⟨hParts, hWord, hSized.length_le⟩,
          hSpelling, ?_, ?_⟩
      · exact (BaseType.ofKeyword_eq_iff word _).mp hBase.symm
      · rwa [hBase]
    · cases hType
  · rintro ⟨word, arguments, hSpells, hStands⟩
    rcases spells_iff.mp hSpells with ⟨hParts, hWord, -⟩
    have hBase :=
      (BaseType.ofKeyword_eq_iff word _).mpr hStands.base
    apply Option.bind_eq_some_iff.mpr
    refine ⟨(word, arguments), hParts, ?_⟩
    dsimp only
    rw [if_pos hWord, hBase, ofArguments?_eq_some_iff]
    exact ⟨hStands.spelling, rfl, hStands.sizes⟩

/-
  A text is read as a type exactly if, without the blanks at
  its ends, the grammar derives it.  The type has this text as
  its spelling, the base type that the word names, and the
  sizes that the arguments stand for.
-/
theorem parse_accepts_spelled (text : String) :
    ((parse text).isSome ↔
      ∃ word arguments,
        Spells (Text.trim text.toList) word arguments) ∧
    ∀ type,
      parse text = some type ↔
        ∃ word arguments,
          Spells (Text.trim text.toList) word arguments ∧
            type.Stands (Text.trim text.toList) word
              arguments := by
  refine ⟨?_, fun type => parse_eq_some_iff⟩
  rw [Option.isSome_iff_exists]
  constructor
  · rintro ⟨type, hType⟩
    rcases parse_eq_some_iff.mp hType with
      ⟨word, arguments, hSpells, -⟩
    exact ⟨word, arguments, hSpells⟩
  · rintro ⟨word, arguments, hSpells⟩
    have hFew := (spells_iff.mp hSpells).2.2
    have hNamed :=
      (BaseType.ofKeyword_eq_iff word _).mp rfl
    rcases exists_sized (BaseType.ofKeyword word) hFew with
      ⟨length, precision, scale, hSized⟩
    refine
      ⟨{ spelling := String.ofList (Text.trim text.toList)
         base := BaseType.ofKeyword word
         length := length
         precision := precision
         scale := scale }, ?_⟩
    exact
      parse_eq_some_iff.mpr
        ⟨word, arguments, hSpells, rfl, hNamed, hSized⟩

end DeclaredType

end Rowstore
