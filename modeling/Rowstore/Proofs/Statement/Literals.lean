import Rowstore.Proofs.Statement.Payloads
import Rowstore.Proofs.Statement.Quoting
import Rowstore.Proofs.Statement.Slicing
import Rowstore.Proofs.Value.Literals

/-
  Literals as tokens and as values.

  A text is one string token if it stands between quotes and
  every quote inside is doubled.  The quotes are taken off a
  literal without a look at what is between them.  So the two
  agree on a text exactly if no stray quote is inside of it;
  they always agree on numbers.

  Main declarations:
    * `Lexer.IsString` and `Lexer.isString_iff`
    * `Value.HasStrayQuote`
    * `Value.unquote_agrees_iff`
-/

------------------------------------------------------------
-- Texts That Are One String
------------------------------------------------------------

namespace Rowstore

namespace Lexer

open Lexeme

variable {s t : List Char}

/- The text is one string token that carries `s`. -/
def IsString (t s : List Char) : Prop :=
  ∃ q : Quote,
    spannedTokens t = [(.string q s, (0, byteSize t))]

/- A text with its quotes doubled, between quotes, is one string. -/
theorem lexemes_doubled
    (q : Quote)
    (s : List Char) :
    lexemes
        (q.char :: (Value.doubled q.char s ++ [q.char])) =
      [{ gap := []
         text := q.char :: (Value.doubled q.char s ++ [q.char])
         token := .string q s }] := by
  have hScan :
      scan q.char
          (Value.doubled q.char s ++ [q.char] ++ []) =
        (some (.string q s),
          (Value.doubled q.char s ++ [q.char]).length) := by
    rw [List.append_nil, List.length_append,
      List.length_singleton]
    exact scan_quoted q s rfl
  have hPieces := pieces_append hScan
  rw [List.append_nil, pieces_nil] at hPieces
  unfold lexemes
  rw [hPieces]
  rfl

/- A text that is one token is the text of this token. -/
theorem lexemes_of_spannedTokens
    {token : Token}
    (hTokens : spannedTokens t = [(token, (0, byteSize t))]) :
    lexemes t =
      [{ gap := []
         text := t
         token := token }] := by
  have hAll := fullText_lexemes t
  rw [spannedTokens_eq] at hTokens
  cases hLexemes : lexemes t with
  | nil =>
      rw [hLexemes] at hTokens
      cases hTokens
  | cons l ls =>
      cases ls with
      | cons m ls =>
          have hLength := congrArg List.length hTokens
          rw [length_spannedFrom, hLexemes] at hLength
          simp at hLength
      | nil =>
          rw [hLexemes] at hTokens hAll
          simp only [spannedFrom, byteSpansFrom, List.map_cons,
            List.map_nil, List.zip_cons_cons, List.zip_nil_left,
            List.cons.injEq, Prod.mk.injEq, and_true,
            Nat.zero_add] at hTokens
          rcases hTokens with ⟨rfl, hGap, hText⟩
          have hSizes := congrArg byteSize hAll
          simp only [fullText, List.flatMap_cons,
            List.flatMap_nil, List.append_nil, byteSize_append]
            at hSizes
          have hNoGap := Text.byteSize_eq_zero_iff.mp hGap
          have hNoRest :
              trailingGap t = [] :=
            Text.byteSize_eq_zero_iff.mp (by omega)
          rw [hNoRest] at hAll
          simp [fullText, hNoGap] at hAll
          rw [← hAll, ← hNoGap]

/- A text is one string exactly if it is written with doubled quotes between quotes. -/
theorem isString_iff :
    IsString t s ↔
      ∃ q : Quote,
        t = q.char :: (Value.doubled q.char s ++ [q.char]) := by
  constructor
  · rintro ⟨q, hTokens⟩
    have hLexemes := lexemes_of_spannedTokens hTokens
    have hMember :
        { gap := []
          text := t
          token := .string q s } ∈ lexemes t := by
      rw [hLexemes]
      exact List.mem_singleton_self _
    exact ⟨q, writtenAs_of_mem_lexemes hMember⟩
  · rintro ⟨q, rfl⟩
    refine ⟨q, ?_⟩
    rw [spannedTokens_eq, lexemes_doubled]
    simp [spannedFrom, byteSpansFrom, byteSize]

end Lexer

end Rowstore

------------------------------------------------------------
-- Literals That Are Read As Tokens
------------------------------------------------------------

namespace Rowstore

namespace Value

open Lexer

variable {c : Char} {s t : List Char}

/- A text between quotes with a stray quote inside. -/
def HasStrayQuote (t : List Char) : Prop :=
  ∃ (q : Quote) (v : List Char),
    t = q.char :: (v ++ [q.char]) ∧ Stray q.char v

theorem isQuote_iff :
    isQuote c = true ↔ ∃ q : Quote, c = q.char := by
  constructor
  · intro hQuote
    unfold isQuote at hQuote
    rw [Bool.or_eq_true, beq_iff_eq, beq_iff_eq] at hQuote
    rcases hQuote with rfl | rfl
    · exact ⟨.single, rfl⟩
    · exact ⟨.double, rfl⟩
  · rintro ⟨q, rfl⟩
    cases q <;> rfl

/- The quotes are taken off every string. -/
theorem unquote_of_isString
    (hString : IsString t s) :
    unquote t = some s := by
  rcases isString_iff.mp hString with ⟨q, hText⟩
  rw [unquote_eq_some_iff]
  exact
    ⟨q.char, doubled q.char s, isQuote_iff.mpr ⟨q, rfl⟩,
      hText, (undouble_doubled q.char s).symm⟩

theorem ofLiteral_of_isString
    (hString : IsString t s) :
    ofLiteral t = .text (String.ofList s) := by
  rcases isString_iff.mp hString with ⟨q, hText⟩
  have hPlain : Text.isBlank q.char = false := by
    cases q <;> decide
  have hTight : Text.Tight t := by
    refine Text.tight_of_ends ?_ ?_ hPlain hPlain
    · rw [hText]
      rfl
    · rw [hText, ← List.cons_append, List.getLast?_concat]
  unfold ofLiteral
  simp only [Text.trim_of_tight hTight,
    unquote_of_isString hString]

/- Without a stray quote, the quotes are taken off strings only. -/
theorem isString_of_unquote
    (hNone : ¬HasStrayQuote t)
    (hUnquote : unquote t = some s) :
    IsString t s := by
  rcases unquote_eq_some_iff.mp hUnquote with
    ⟨c, v, hQuote, hText, hInside⟩
  rcases isQuote_iff.mp hQuote with ⟨q, rfl⟩
  have hEven : ¬Stray q.char v :=
    fun hStray => hNone ⟨q, v, hText, hStray⟩
  rw [isString_iff, hInside]
  exact ⟨q, by rw [doubled_undouble hEven, hText]⟩

/- With a stray quote, the text is no string, and the quotes are taken off all the same. -/
theorem not_isString_of_stray
    (hStray : HasStrayQuote t) :
    (∃ s, unquote t = some s) ∧ ∀ s, ¬IsString t s := by
  rcases hStray with ⟨q, v, hText, hStray⟩
  constructor
  · refine ⟨undouble q.char v, ?_⟩
    rw [unquote_eq_some_iff]
    exact ⟨_, v, isQuote_iff.mpr ⟨q, rfl⟩, hText, rfl⟩
  · intro s hString
    rcases isString_iff.mp hString with ⟨q', hText'⟩
    rw [hText, List.cons.injEq] at hText'
    rcases hText' with ⟨hSame, hInside⟩
    rw [← hSame] at hInside
    have hDoubled := List.append_cancel_right hInside
    exact exists_doubled_iff.mp ⟨s, hDoubled⟩ hStray

/- The number that a token carries is the one that its text denotes, if it is finite. -/
theorem ofLiteral_of_number
    {l : Lexeme}
    {x : Float}
    (hMember : l ∈ lexemes t)
    (hToken : l.token = .number x)
    (hFinite : x.isFinite = true) :
    ofLiteral l.text = .number x := by
  have hText := writtenAs_of_mem_lexemes hMember
  rw [hToken] at hText
  change numberToken l.text = .number x at hText
  unfold numberToken at hText
  split at hText
  · rename_i d hDecimal
    rw [← Token.number.inj hText] at hFinite ⊢
    exact ofLiteral_of_ofText? hDecimal hFinite
  · cases hText

/-
  The quotes are taken off a text exactly if it is one string,
  unless a stray quote is inside of it.  Every string is taken
  as the text that its token carries, and the text of a number
  as the number that its token carries, if this is finite.
-/
theorem unquote_agrees_iff (t : List Char) :
    ((∀ s, unquote t = some s ↔ IsString t s) ↔
      ¬HasStrayQuote t) ∧
      (∀ s, IsString t s →
        unquote t = some s ∧
          ofLiteral t = .text (String.ofList s)) ∧
      ∀ l ∈ lexemes t, ∀ x,
        l.token = .number x → x.isFinite = true →
          ofLiteral l.text = .number x := by
  refine ⟨⟨?_, ?_⟩, ?_, ?_⟩
  · intro hAgree hStray
    rcases not_isString_of_stray hStray with
      ⟨⟨s, hUnquote⟩, hNone⟩
    exact hNone s ((hAgree s).mp hUnquote)
  · exact fun hNone s =>
      ⟨isString_of_unquote hNone, unquote_of_isString⟩
  · exact fun s hString =>
      ⟨unquote_of_isString hString,
        ofLiteral_of_isString hString⟩
  · exact fun l hMember x hToken hFinite =>
      ofLiteral_of_number hMember hToken hFinite

/- The text `'a'b'` is a string, a name and a quote without an end, and is taken as a quoted text. -/
theorem quote_inside_is_kept :
    unquote "'a'b'".toList = some "a'b".toList ∧
      ofLiteral "'a'b'".toList = .text "a'b" ∧
      (lexemes "'a'b'".toList).map Lexeme.token =
        [.string .single "a".toList, .name "b".toList,
          .unknown] ∧
      ¬IsString "'a'b'".toList "a'b".toList := by
  refine ⟨by decide +kernel, by decide +kernel,
    by decide +kernel, ?_⟩
  rintro ⟨q, hTokens⟩
  revert hTokens
  cases q <;> decide +kernel

end Value

end Rowstore
