import Mathlib.Data.List.Induction
import Rowstore.Proofs.Text.Trimming
import Rowstore.Shell.Layout

/-
  Where the texts of a laid out table stand.

  A column is as wide as its longest text.  Every line of texts
  that is filled up with spaces holds each text at the offset
  of its column, filled up to the width of the column, and the
  separator between two columns.  The rule under the header is
  divided at the same places.

  Main declarations:
    * `Layout.columnWidth` and `Layout.isWidest_columnWidth`
    * `Layout.offset` and `Layout.Divided`
    * `Layout.divided_intercalate`
    * `Layout.table_is_aligned`
-/

------------------------------------------------------------
-- Widths Of Columns
------------------------------------------------------------

namespace Rowstore

namespace Layout

variable {headers texts : List String}
variable {rows : List (List String)}

/- The text of a line in a column; a short line has no text there. -/
def cellAt
    (texts : List String)
    (i : Nat) : String :=
  texts.getD i ""

/- A column's longest text has this many characters. -/
structure IsWidest
    (headers : List String)
    (rows : List (List String))
    (i w : Nat) : Prop where
  attained :
    ∃ texts ∈ headers :: rows, (cellAt texts i).length = w
  bound :
    ∀ texts ∈ headers :: rows, (cellAt texts i).length ≤ w

/- The width of a column: that of the header, widened for the rows. -/
def columnWidth
    (headers : List String)
    (rows : List (List String))
    (i : Nat) : Nat :=
  rows.foldl (fun w texts => max w (cellAt texts i).length)
    (cellAt headers i).length

theorem isWidest_columnWidth
    (headers : List String)
    (rows : List (List String))
    (i : Nat) :
    IsWidest headers rows i (columnWidth headers rows i) := by
  unfold columnWidth
  induction rows generalizing headers with
  | nil => exact ⟨⟨headers, by simp, rfl⟩, by simp⟩
  | cons first rows ih =>
      rw [List.foldl_cons]
      -- The wider one of the first two lines stands for both.
      rcases Nat.le_total (cellAt headers i).length
          (cellAt first i).length with hFirst | hFirst
      · rw [Nat.max_eq_right hFirst]
        rcases ih first with ⟨⟨texts, hLine, hSame⟩, hBound⟩
        refine
          ⟨⟨texts, List.mem_cons_of_mem _ hLine, hSame⟩, ?_⟩
        rw [List.forall_mem_cons]
        exact
          ⟨Nat.le_trans hFirst (hBound first (by simp)), hBound⟩
      · rw [Nat.max_eq_left hFirst]
        rcases ih headers with ⟨⟨texts, hLine, hSame⟩, hBound⟩
        rw [List.forall_mem_cons] at hBound
        refine ⟨⟨texts, ?_, hSame⟩, ?_⟩
        · rw [List.mem_cons] at hLine ⊢
          exact hLine.imp_right (List.mem_cons_of_mem _)
        · rw [List.forall_mem_cons, List.forall_mem_cons]
          exact
            ⟨hBound.1, Nat.le_trans hFirst hBound.1, hBound.2⟩

theorem getElem?_widen
    (ws : List Nat)
    (cells : List String)
    (i : Nat) :
    (widen ws cells)[i]? =
      ws[i]?.map fun w => max w (cellAt cells i).length := by
  induction ws generalizing cells i with
  | nil => cases cells <;> rfl
  | cons w ws ih =>
      cases cells with
      | nil => simp [widen, cellAt]
      | cons cell cells =>
          cases i with
          | zero => rfl
          | succ i => exact ih cells i

/- The widths of the columns are those of the header's columns. -/
theorem getElem?_widths
    (headers : List String)
    (rows : List (List String))
    (i : Nat) :
    (widths headers rows)[i]? =
      if i < headers.length then
        some (columnWidth headers rows i)
      else none := by
  have hFold
      (ws : List Nat) :
      (rows.foldl widen ws)[i]? =
        ws[i]?.map fun w =>
          rows.foldl
            (fun w texts => max w (cellAt texts i).length)
            w := by
    induction rows generalizing ws with
    | nil => simp
    | cons first rows ih =>
        rw [List.foldl_cons, ih, getElem?_widen, Option.map_map]
        rfl
  rw [widths, hFold, List.getElem?_map]
  split
  · rename_i hColumn
    rw [List.getElem?_eq_getElem hColumn]
    simp [columnWidth, cellAt, hColumn]
  · rename_i hColumn
    rw [List.getElem?_eq_none (by omega)]
    rfl

/- A list that has entries exactly below a number has that length. -/
theorem length_of_getElem?
    {α : Type}
    {as : List α}
    {f : Nat → α}
    {n : Nat}
    (hEntries :
      ∀ i, as[i]? = if i < n then some (f i) else none) :
    as.length = n := by
  have hAfter := hEntries n
  rw [if_neg (by omega), List.getElem?_eq_none_iff] at hAfter
  by_contra hShorter
  have hInside := hEntries as.length
  rw [if_pos (by omega), List.getElem?_eq_none (by omega)]
    at hInside
  cases hInside

theorem length_widths
    (headers : List String)
    (rows : List (List String)) :
    (widths headers rows).length = headers.length :=
  length_of_getElem? (getElem?_widths headers rows)

------------------------------------------------------------
-- Divided Lines
------------------------------------------------------------

/- The offset of a column, with three characters between two columns. -/
def offset (width : Nat → Nat) : Nat → Nat
| 0 => 0
| i + 1 => offset width i + width i + 3

/- The length of a line over a number of columns. -/
def totalWidth
    (width : Nat → Nat)
    (count : Nat) : Nat :=
  offset width count - 3

/-
  A line over a number of columns: at the offset of each one
  stands its text, and something else between two of them.
-/
structure Divided
    (width : Nat → Nat)
    (count : Nat)
    (between : List Char)
    (content : Nat → List Char)
    (line : List Char) : Prop where
  length : line.length = totalWidth width count
  columns :
    ∀ i < count,
      (line.drop (offset width i)).take (width i) = content i
  gaps :
    ∀ i, i + 1 < count →
      (line.drop (offset width i + width i)).take 3 = between

theorem length_flatMap_offset
    {sep : List Char}
    {width : Nat → Nat}
    (hSep : sep.length = 3)
    (front : List (List Char))
    (hWidth :
      ∀ i piece, front[i]? = some piece →
        piece.length = width i) :
    (front.flatMap (· ++ sep)).length =
      offset width front.length := by
  induction front using List.reverseRecOn with
  | nil => rfl
  | append_singleton front piece ih =>
      have hLast : piece.length = width front.length :=
        hWidth _ _ (by simp)
      have hFront := ih fun i p hPiece =>
        hWidth i p (by
          rw [List.getElem?_append_left
            (List.getElem?_eq_some_iff.mp hPiece).1, hPiece])
      simp [hFront, hLast, hSep, offset, Nat.add_assoc]

theorem intercalate_split
    (sep : List Char)
    (front : List (List Char))
    (piece : List Char)
    (back : List (List Char)) :
    sep.intercalate (front ++ piece :: back) =
      front.flatMap (· ++ sep) ++
        (piece ++ back.flatMap (sep ++ ·)) := by
  induction front with
  | nil =>
      induction back generalizing piece with
      | nil => simp
      | cons next back ih =>
          simp only [List.nil_append] at ih
          rw [List.nil_append, List.intercalate_cons_cons, ih]
          simp
  | cons first front ih =>
      cases front with
      | nil =>
          rw [List.nil_append] at ih
          rw [List.singleton_append, List.intercalate_cons_cons,
            ih]
          simp
      | cons second front =>
          rw [List.cons_append] at ih ⊢
          rw [List.cons_append, List.intercalate_cons_cons, ih]
          simp

/- What stands in front of a piece has the length of its offset. -/
theorem length_front
    {sep : List Char}
    {width : Nat → Nat}
    {front back : List (List Char)}
    (hSep : sep.length = 3)
    (hWidth :
      ∀ i piece, (front ++ back)[i]? = some piece →
        piece.length = width i) :
    (front.flatMap (· ++ sep)).length =
      offset width front.length := by
  refine length_flatMap_offset hSep front fun i p hPiece => ?_
  have hInside := (List.getElem?_eq_some_iff.mp hPiece).1
  apply hWidth
  rw [List.getElem?_append_left hInside, hPiece]

/- The piece of a column stands between those in front of it and those behind. -/
theorem exists_split_at
    {pieces : List (List Char)}
    {i : Nat}
    (hColumn : i < pieces.length) :
    ∃ front piece back,
      pieces = front ++ piece :: back ∧ front.length = i ∧
        pieces[i]? = some piece := by
  refine
    ⟨pieces.take i, pieces[i], pieces.drop (i + 1), ?_, ?_,
      List.getElem?_eq_getElem hColumn⟩
  · rw [← List.drop_eq_getElem_cons hColumn,
      List.take_append_drop]
  · rw [List.length_take]
    omega

/- Pieces of the widths of columns stand at their offsets, with the separator between two of them. -/
theorem divided_intercalate
    (sep : List Char)
    (width : Nat → Nat)
    (pieces : List (List Char))
    (hSep : sep.length = 3)
    (hSome : pieces ≠ [])
    (hWidth :
      ∀ i piece, pieces[i]? = some piece →
        piece.length = width i) :
    Divided width pieces.length sep
      (fun i => pieces.getD i []) (sep.intercalate pieces) := by
  constructor
  · rcases exists_split_at (by
        have hPos := List.length_pos_iff.mpr hSome
        omega : pieces.length - 1 < pieces.length) with
      ⟨front, piece, back, hSplit, hIndex, hAt⟩
    have hPiece := hWidth _ _ hAt
    have hEnd : back = [] := by
      have hLength := congrArg List.length hSplit
      rw [List.length_append, List.length_cons] at hLength
      rw [← List.length_eq_zero_iff]
      omega
    rw [hEnd] at hSplit
    have hTotal :
        offset width pieces.length =
          offset width front.length + width front.length + 3 := by
      rw [hSplit]
      simp [offset]
    have hFront :
        (front.flatMap (· ++ sep)).length =
          offset width front.length :=
      length_front hSep (hSplit ▸ hWidth)
    rw [totalWidth, hTotal, hSplit, intercalate_split,
      List.length_append, hFront]
    rw [← hIndex] at hPiece
    simp [hPiece]
  · intro i hColumn
    rcases exists_split_at hColumn with
      ⟨front, piece, back, hSplit, rfl, hAt⟩
    have hPiece := hWidth _ _ hAt
    rw [hSplit] at hWidth ⊢
    rw [intercalate_split,
      List.drop_left' (length_front hSep hWidth),
      List.take_left' hPiece]
    simp
  · intro i hColumn
    rcases exists_split_at (by omega : i < pieces.length) with
      ⟨front, piece, back, hSplit, rfl, hAt⟩
    have hPiece := hWidth _ _ hAt
    rw [hSplit] at hWidth hColumn ⊢
    cases back with
    | nil =>
        rw [List.length_append] at hColumn
        exact absurd hColumn (by simp)
    | cons next back =>
        rw [intercalate_split, ← List.append_assoc,
          List.drop_left' (by
            rw [List.length_append, length_front hSep hWidth,
              hPiece]),
          List.flatMap_cons, List.append_assoc,
          List.take_left' hSep]

------------------------------------------------------------
-- Lines Of Texts
------------------------------------------------------------

theorem toList_padded
    (width : Nat)
    (cell : String) :
    (padded width cell).toList =
      cell.toList ++
        List.replicate (width - cell.length) ' ' := by
  simp [padded, repeated]

theorem length_padded
    {width : Nat}
    {cell : String}
    (hFits : cell.length ≤ width) :
    (padded width cell).toList.length = width := by
  rw [toList_padded, List.length_append, List.length_replicate,
    String.length_toList]
  omega

theorem getElem?_paddedCells
    (ws : List Nat)
    (cells : List String)
    (i : Nat) :
    (paddedCells ws cells)[i]? =
      ws[i]?.map fun w => padded w (cellAt cells i) := by
  induction ws generalizing cells i with
  | nil => cases cells <;> rfl
  | cons w ws ih =>
      cases cells with
      | nil =>
          cases i with
          | zero => rfl
          | succ i =>
              rw [paddedCells, List.getElem?_cons_succ, ih]
              rfl
      | cons cell cells =>
          cases i with
          | zero => rfl
          | succ i => exact ih cells i

theorem Divided.congr
    {width : Nat → Nat}
    {count : Nat}
    {between line : List Char}
    {content content' : Nat → List Char}
    (hDivided : Divided width count between content line)
    (hSame : ∀ i < count, content i = content' i) :
    Divided width count between content' line where
  length := hDivided.length
  columns := by
    intro i hColumn
    rw [hDivided.columns i hColumn, hSame i hColumn]
  gaps := hDivided.gaps

/- A line of texts before the blanks at its end are cut off. -/
def fullLine
    (ws : List Nat)
    (cells : List String) : List Char :=
  separator.toList.intercalate
    ((paddedCells ws cells).map String.toList)

theorem toList_line
    (ws : List Nat)
    (cells : List String) :
    (line ws cells).toList = Text.trimEnd (fullLine ws cells) := by
  rw [line, String.toList_ofList, String.toList_intercalate]
  rfl

theorem getElem?_pieces
    (headers cells : List String)
    (rows : List (List String))
    (i : Nat) :
    ((paddedCells (widths headers rows) cells).map
        String.toList)[i]? =
      if i < headers.length then
        some
          (padded (columnWidth headers rows i)
            (cellAt cells i)).toList
      else none := by
  rw [List.getElem?_map, getElem?_paddedCells, getElem?_widths]
  split <;> rfl

/- Before it is cut, a line has its texts at the offsets of their columns. -/
theorem divided_fullLine
    (hSome : headers ≠ [])
    (hLine : texts ∈ headers :: rows) :
    Divided (columnWidth headers rows) headers.length
      separator.toList
      (fun i =>
        (padded (columnWidth headers rows i)
          (cellAt texts i)).toList)
      (fullLine (widths headers rows) texts) := by
  have hLength :
      ((paddedCells (widths headers rows) texts).map
        String.toList).length = headers.length :=
    length_of_getElem? (getElem?_pieces headers texts rows)
  have hDivided :=
    divided_intercalate separator.toList
      (columnWidth headers rows)
      ((paddedCells (widths headers rows) texts).map
        String.toList)
      rfl
      (by
        rw [← List.length_pos_iff, hLength,
          List.length_pos_iff]
        exact hSome)
      (by
        intro i piece hPiece
        rw [getElem?_pieces] at hPiece
        split at hPiece
        · cases hPiece
          exact
            length_padded
              ((isWidest_columnWidth headers rows i).bound texts
                hLine)
        · cases hPiece)
  rw [hLength] at hDivided
  refine hDivided.congr fun i hColumn => ?_
  rw [List.getD_eq_getElem?_getD, getElem?_pieces,
    if_pos hColumn]
  rfl

/- The only blanks in a text are spaces. -/
def Spaced (s : List Char) : Prop :=
  ∀ c ∈ s, Text.isBlank c = true → c = ' '

theorem spaced_iff_all
    {s : List Char} :
    (s.all fun c => !Text.isBlank c || c == ' ') = true ↔
      Spaced s := by
  rw [List.all_eq_true]
  refine forall₂_congr fun c _ => ?_
  simp [Decidable.imp_iff_not_or]

/- Decided by the characters of the text, not by all characters there are. -/
instance (s : List Char) : Decidable (Spaced s) :=
  decidable_of_iff _ spaced_iff_all

/- A text with spaces only has no line break. -/
theorem Spaced.no_break
    {s : List Char}
    (hSpaced : Spaced s) :
    '\n' ∉ s := by
  intro hMember
  have hSpace := hSpaced '\n' hMember (by decide)
  cases hSpace

theorem mem_intercalate
    {sep : List Char}
    {pieces : List (List Char)}
    {c : Char}
    (hMember : c ∈ sep.intercalate pieces) :
    c ∈ sep ∨ ∃ piece ∈ pieces, c ∈ piece := by
  induction pieces with
  | nil => simp at hMember
  | cons piece pieces ih =>
      cases pieces with
      | nil =>
          rw [List.intercalate_singleton] at hMember
          exact .inr ⟨piece, by simp, hMember⟩
      | cons next pieces =>
          rw [List.intercalate_cons_cons, List.mem_append,
            List.mem_append] at hMember
          rcases hMember with (hMember | hMember) | hMember
          · exact .inr ⟨piece, by simp, hMember⟩
          · exact .inl hMember
          · refine (ih hMember).imp_right ?_
            rintro ⟨p, hPiece, hInside⟩
            exact ⟨p, List.mem_cons_of_mem _ hPiece, hInside⟩

theorem spaced_padded
    {width : Nat}
    {cell : String}
    (hSpaced : Spaced cell.toList) :
    Spaced (padded width cell).toList := by
  intro c hMember hBlank
  rw [toList_padded, List.mem_append] at hMember
  rcases hMember with hMember | hMember
  · exact hSpaced c hMember hBlank
  · exact (List.mem_replicate.mp hMember).2

theorem spaced_cellAt
    (hSpaced : ∀ text ∈ texts, Spaced text.toList)
    (i : Nat) :
    Spaced (cellAt texts i).toList := by
  unfold cellAt
  rw [List.getD_eq_getElem?_getD]
  cases hText : texts[i]? with
  | none => simp [Spaced]
  | some text =>
      exact hSpaced text (List.mem_of_getElem? hText)

/- Neither the filling nor the separator brings in another blank than a space. -/
theorem spaced_fullLine
    (ws : List Nat)
    (hSpaced : ∀ text ∈ texts, Spaced text.toList) :
    Spaced (fullLine ws texts) := by
  intro c hMember hBlank
  rcases mem_intercalate hMember with hSep | ⟨piece, hPiece, hInside⟩
  · have hAll : Spaced separator.toList := by
      decide
    exact hAll c hSep hBlank
  · rcases List.mem_map.mp hPiece with ⟨cell, hCell, rfl⟩
    rcases List.mem_iff_getElem?.mp hCell with ⟨i, hIndex⟩
    rw [getElem?_paddedCells, Option.map_eq_some_iff] at hIndex
    rcases hIndex with ⟨w, _, rfl⟩
    exact
      spaced_padded (spaced_cellAt hSpaced i) c hInside hBlank

/- A text whose blanks are spaces is what filling up gives back after its end was cut off. -/
theorem padded_trimEnd
    {s : List Char}
    (hSpaced : Spaced s) :
    (padded s.length (String.ofList (Text.trimEnd s))).toList =
      s := by
  rcases Text.dropEndWhile_split Text.isBlank s with
    ⟨y, hSplit, hBlank⟩
  change s = Text.trimEnd s ++ y at hSplit
  have hEnd : y = List.replicate y.length ' ' := by
    rw [List.eq_replicate_iff]
    refine ⟨rfl, fun c hMember => ?_⟩
    refine hSpaced c ?_ (hBlank c hMember)
    rw [hSplit]
    exact List.mem_append_right _ hMember
  have hLength :
      s.length - (Text.trimEnd s).length = y.length := by
    rw [Nat.sub_eq_iff_eq_add
      (Text.trimEnd_isPrefix s).length_le, Nat.add_comm,
      ← List.length_append, ← hSplit]
  rw [toList_padded, String.toList_ofList,
    String.length_ofList, hLength, ← hEnd, ← hSplit]

------------------------------------------------------------
-- Tables
------------------------------------------------------------

theorem toList_rule (ws : List Nat) :
    (rule ws).toList =
      ruleSeparator.toList.intercalate
        (ws.map fun w => List.replicate w '-') := by
  rw [rule, String.toList_intercalate, List.map_map]
  congr 2
  funext w
  simp [repeated]

theorem spaced_rule (ws : List Nat) :
    Spaced (rule ws).toList := by
  have hDash : Text.isBlank '-' = false := by decide
  intro c hMember hBlank
  rw [toList_rule] at hMember
  rcases mem_intercalate hMember with hSep | ⟨piece, hPiece, hInside⟩
  · have hAll : Spaced ruleSeparator.toList := by
      decide
    exact hAll c hSep hBlank
  · rcases List.mem_map.mp hPiece with ⟨w, _, rfl⟩
    rw [(List.mem_replicate.mp hInside).2, hDash] at hBlank
    cases hBlank

theorem divided_rule
    (hSome : headers ≠ [])
    (rows : List (List String)) :
    Divided (columnWidth headers rows) headers.length
      ruleSeparator.toList
      (fun i => List.replicate (columnWidth headers rows i) '-')
      (rule (widths headers rows)).toList := by
  have hDivided :=
    divided_intercalate ruleSeparator.toList
      (columnWidth headers rows)
      ((widths headers rows).map
        fun w => List.replicate w '-')
      rfl
      (by
        rw [← List.length_pos_iff, List.length_map,
          length_widths, List.length_pos_iff]
        exact hSome)
      (by
        intro i piece hPiece
        rw [List.getElem?_map, getElem?_widths] at hPiece
        split at hPiece
        · cases hPiece
          simp
        · cases hPiece)
  rw [List.length_map, length_widths, ← toList_rule] at hDivided
  refine hDivided.congr fun i hColumn => ?_
  rw [List.getD_eq_getElem?_getD, List.getElem?_map,
    getElem?_widths, if_pos hColumn]
  rfl

/- Lines that are closed by line breaks are what splitting at them gives. -/
theorem splitOn_closed
    {lines : List (List Char)}
    (hInside : ∀ line ∈ lines, '\n' ∉ line) :
    (lines.flatMap (· ++ ['\n'])).splitOn '\n' =
      lines ++ [[]] := by
  have hSplit := intercalate_split ['\n'] lines [] []
  rw [List.flatMap_nil, List.append_nil, List.append_nil]
    at hSplit
  rw [← hSplit]
  refine List.splitOn_intercalate '\n' ?_ (by simp)
  intro line hLine
  rw [List.mem_append, List.mem_singleton] at hLine
  rcases hLine with hLine | rfl
  · exact hInside line hLine
  · simp

/-
  A table with columns, in whose texts only spaces are blank,
  has a header line, a rule and a line for each row, and
  nothing behind them.  A column is as wide as its longest
  text.  When they are filled up with spaces, the header line
  and the lines of rows hold each text at the offset of its
  column, with the separator between two columns.  The rule has
  dashes under every column, and is divided at the same places.
-/
theorem table_is_aligned
    (hSome : headers ≠ [])
    (hSpaced :
      ∀ texts ∈ headers :: rows,
        ∀ text ∈ texts, Spaced text.toList) :
    let width := columnWidth headers rows
    let total := totalWidth width headers.length
    (∀ i, IsWidest headers rows i (width i)) ∧
      ∃ (shown : List String → String) (rule : String),
        (table headers rows).toList.splitOn '\n' =
          (shown headers :: rule :: rows.map shown).map
              String.toList ++ [[]] ∧
          (∀ texts ∈ headers :: rows,
            (shown texts).length ≤ total ∧
              Divided width headers.length " | ".toList
                (fun i =>
                  (padded (width i) (cellAt texts i)).toList)
                (padded total (shown texts)).toList) ∧
            Divided width headers.length "-+-".toList
              (fun i => List.replicate (width i) '-')
              rule.toList := by
  intro width total
  let ws := widths headers rows
  have hFull
      (texts : List String)
      (hLine : texts ∈ headers :: rows) :
      (fullLine ws texts).length = total ∧
        Spaced (fullLine ws texts) :=
    ⟨(divided_fullLine hSome hLine).length,
      spaced_fullLine ws (hSpaced texts hLine)⟩
  have hRule := divided_rule hSome rows
  refine
    ⟨isWidest_columnWidth headers rows, line ws, rule ws, ?_,
      ?_, hRule⟩
  · have hText :
        (table headers rows).toList =
          ((line ws headers :: rule ws ::
            rows.map (line ws)).map String.toList).flatMap
              (· ++ ['\n']) := by
      have hColumns : headers.isEmpty = false := by
        simpa using hSome
      rw [table, hColumns, if_neg Bool.false_ne_true,
        String.toList_join, List.flatMap_map, List.flatMap_map]
      simp only [String.toList_append]
      rfl
    have hBroken
        (texts : List String)
        (hLine : texts ∈ headers :: rows) :
        '\n' ∉ (line ws texts).toList := by
      rw [toList_line]
      intro hMember
      exact
        (hFull texts hLine).2.no_break
          ((Text.trimEnd_isPrefix _).subset hMember)
    rw [hText]
    refine splitOn_closed ?_
    rw [List.forall_mem_map, List.forall_mem_cons,
      List.forall_mem_cons, List.forall_mem_map]
    exact
      ⟨hBroken headers (by simp), (spaced_rule ws).no_break,
        fun texts hRow =>
          hBroken texts (List.mem_cons_of_mem _ hRow)⟩
  · intro texts hLine
    rcases hFull texts hLine with ⟨hLength, hOnly⟩
    have hShown : line ws texts =
        String.ofList (Text.trimEnd (fullLine ws texts)) := by
      rw [← toList_line, String.ofList_toList]
    constructor
    · rw [hShown, String.length_ofList, ← hLength]
      exact (Text.trimEnd_isPrefix _).length_le
    · rw [hShown, ← hLength, padded_trimEnd hOnly]
      exact divided_fullLine hSome hLine

/- A short row, a long one and one that ends in an empty text under a header of two columns. -/
theorem ragged_table_is_aligned :
    let headers := ["id", "name"]
    let rows := [["1"], ["20", "Z\u00fcrich", "left out"], ["3", ""]]
    table headers rows =
        "id | name\n---+-------\n1  |\n20 | Z\u00fcrich\n3  |\n" ∧
      headers ≠ [] ∧
        (∀ texts ∈ headers :: rows,
          ∀ text ∈ texts, Spaced text.toList) ∧
          ∃ shown : List String → String,
            ∀ texts ∈ headers :: rows,
              Divided (columnWidth headers rows) 2 " | ".toList
                (fun i =>
                  (padded (columnWidth headers rows i)
                    (cellAt texts i)).toList)
                (padded 11 (shown texts)).toList := by
  intro headers rows
  have hSome : headers ≠ [] := by decide
  have hSpaced :
      ∀ texts ∈ headers :: rows,
        ∀ text ∈ texts, Spaced text.toList := by
    decide
  rcases table_is_aligned hSome hSpaced with
    ⟨_, shown, _, _, hLines, _⟩
  have hTotal :
      totalWidth (columnWidth headers rows) headers.length =
        11 := by
    decide +kernel
  refine ⟨by decide +kernel, hSome, hSpaced, shown, ?_⟩
  intro texts hLine
  rw [← hTotal]
  exact (hLines texts hLine).2

end Layout

end Rowstore
