import Rowstore.Proofs.Execution
import Rowstore.Proofs.Text.Trimming
import Rowstore.Session.Request
import Rowstore.Shell.Program

/-
  What a shell makes of lines: meta commands, and statements
  that it gathers from one or more of them.

  The lines of a meta command are dropped, the others are cut
  behind each line that ends a statement and at each blank
  line.  Every group of lines is executed once, in order,
  whatever the commands and statements answer, and at the end
  of input no line is left over.  The session serves the
  requests of these jobs, and no others.

  Main declarations:
    * `Shell.marked`, `Shell.cut` and `Shell.statements`
    * `Shell.Job`, `Shell.Job.perform` and `Shell.journal`
    * `Shell.Serves` and `Shell.Job.serves_perform`
    * `Shell.statements_journal`
    * `Shell.attend_eq_performAll`
    * `Shell.lines_are_executed_once`
-/

------------------------------------------------------------
-- Groups Of Lines
------------------------------------------------------------

namespace Rowstore

namespace Shell

/- The line holds nothing but blanks. -/
def isBlankLine (line : String) : Bool :=
  (Text.trim line.toList).isEmpty

/- The last character of the line is a semicolon, blanks apart. -/
def endsStatement (line : String) : Bool :=
  (Text.trim line.toList).getLast? == some ';'

/- Behind the line its statement waits for further lines. -/
def staysOpen (line : String) : Bool :=
  !isBlankLine line && !endsStatement line

/-
  Lines with whether they are meta commands: they start with a
  dot, and nothing is pending in front of them.
-/
def marked (pending : Bool) :
    List (Stamp × String) → List (Bool × Stamp × String)
| [] => []
| line :: lines =>
  let isCommand := !pending && isMeta line.2
  (isCommand, line) ::
    marked (!isCommand && staysOpen line.2) lines

/- The lines that are meta commands. -/
def commandLines
    (lines : List (Bool × Stamp × String)) :
    List (Stamp × String) :=
  (lines.filter fun l => l.1).map Prod.snd

/- The lines that belong to statements. -/
def statementLines
    (lines : List (Bool × Stamp × String)) :
    List (Stamp × String) :=
  (lines.filter fun l => !l.1).map Prod.snd

/-
  Lines cut behind each one that ends a statement and at each
  blank one, which is left out.  A group has the stamp of the
  line that closes it, or the last stamp.
-/
def cut (last : Stamp) :
    List (Stamp × String) → List (Stamp × List String)
| [] => [(last, [])]
| (stamp, line) :: lines =>
  if isBlankLine line then (stamp, []) :: cut last lines
  else if endsStatement line then
    (stamp, [line]) :: cut last lines
  else
    (cut last lines).modifyHead fun g => (g.1, line :: g.2)

/- The text of a line without the blanks at its end. -/
def withoutEnd (line : String) : String :=
  String.ofList (Text.trimEnd line.toList)

/- The statement of a group of lines, one below the other. -/
def joined (group : List String) : String :=
  "\n".intercalate (group.map withoutEnd)

/- The statements of groups, those without lines left out. -/
def groupStatements
    (groups : List (Stamp × List String)) :
    List (Stamp × String) :=
  (groups.filter fun g => !g.2.isEmpty).map fun g =>
    (g.1, joined g.2)

/- The statements that lines hold, with the stamps they are executed at. -/
def statements
    (last : Stamp)
    (lines : List (Stamp × String)) :
    List (Stamp × String) :=
  groupStatements (cut last (statementLines (marked false lines)))

------------------------------------------------------------
-- Jobs And Their Order
------------------------------------------------------------

/- What lines ask a shell to do. -/
inductive Job where
| command (stamp : Stamp) (line : String)
| statement (stamp : Stamp) (text : String)

/- The insertion that the arguments of a command ask for. -/
def insertion? : List (List Char) → Option Session.Request
| [] => none
| table :: words =>
  match pairs words with
  | .ok entries =>
    some (.insertRow (String.ofList table) entries)
  | .error _ => none

/- What a meta command asks of the session, if it asks anything. -/
def commandRequest?
    (stamp : Stamp)
    (word : List Char)
    (arguments : List (List Char)) : Option Session.Request :=
  match String.ofList (Text.lowerBasic word) with
  | ".databases" => some (.statement stamp "SHOW DATABASES")
  | ".tables" => some (.statement stamp "SHOW TABLES")
  | ".insert" => insertion? arguments
  | _ => none

namespace Job

/- The statement that is executed. -/
def statement? : Job → Option (Stamp × String)
| command _ _ => none
| statement stamp text => some (stamp, text)

/- The line that is run as a meta command. -/
def command? : Job → Option (Stamp × String)
| command stamp line => some (stamp, line)
| statement _ _ => none

/- What is asked of the session, if anything is. -/
def request? : Job → Option Session.Request
| command stamp line =>
  let words := Text.words line.toList
  commandRequest? stamp (words.headD []) words.tail
| statement stamp text => some (.statement stamp text)

/-
  Do the work, once: the answer, and the shell that is left.
  The session executes a statement, and its result is shown.
-/
def perform : Job → Shell → Except Error Step × Shell
| command stamp line, sh =>
  let words := Text.words line.toList
  (runMeta stamp (words.headD []) words.tail).run.run sh
| statement stamp text, sh =>
  let (answer, s) :=
    (Session.execute stamp text).run.run sh.session
  (answer.map fun r => .output r.render, { sh with session := s })

end Job

/- Do all work in order, whatever the answers are. -/
def performAll :
    List Job → Shell → List (Except Error Step) × Shell
| [], sh => ([], sh)
| w :: ws, sh =>
  let (answer, sh') := w.perform sh
  let (answers, sh'') := performAll ws sh'
  (answer :: answers, sh'')

/- The work for gathered lines when they are closed, if there are any. -/
def closing
    (stamp : Stamp)
    (held : List String) : List Job :=
  if held.isEmpty then [] else [.statement stamp (joined held)]

/- The work for lines that come after those that are held, and for the end of input. -/
def journal
    (last : Stamp)
    (held : List String) : List (Stamp × String) → List Job
| [] => closing last held
| (stamp, line) :: lines =>
  if held.isEmpty && isMeta line then
    .command stamp line :: journal last [] lines
  else if isBlankLine line then
    closing stamp held ++ journal last [] lines
  else if endsStatement line then
    closing stamp (held ++ [line]) ++ journal last [] lines
  else journal last (held ++ [line]) lines

/- The answer to a line, if its statement is not waiting for more. -/
def answerToLine :
    Except Error Step → List (Except Error Step)
| .ok .pending => []
| answer => [answer]

/- The answer at the end of input, if something was left to execute. -/
def answerAtEnd :
    Except Error (Option String) → List (Except Error Step)
| .ok none => []
| .ok (some text) => [.ok (.output text)]
| .error e => [.error e]

/- Take lines and then the end of input: the answers, and the shell that is left. -/
def attend (last : Stamp) :
    List (Stamp × String) → Shell →
      List (Except Error Step) × Shell
| [], sh =>
  let (answer, sh') := (finish last).run.run sh
  (answerAtEnd answer, sh')
| (stamp, line) :: lines, sh =>
  let (answer, sh') := (handleLine stamp line).run.run sh
  let (answers, sh'') := attend last lines sh'
  (answerToLine answer ++ answers, sh'')

end Shell

end Rowstore

------------------------------------------------------------
-- Ends Of Lines
------------------------------------------------------------

namespace Rowstore

namespace Text

variable {s : List Char}

/- A text that is trimmed at its end only has the rest of its blanks in front. -/
theorem trimEnd_eq_append_trim
    (hSome : trim s ≠ []) :
    ∃ before, trimEnd s = before ++ trim s := by
  rcases trimStart_split s with ⟨before, hSplit, _⟩
  refine ⟨before, ?_⟩
  calc
    trimEnd s = trimEnd (before ++ trimStart s) :=
      congrArg _ hSplit
    _ = before ++ trimEnd (trimStart s) :=
      dropEndWhile_append_of_ne hSome

/- A text of blanks only is trimmed away from either end. -/
theorem trimEnd_eq_nil_iff :
    trimEnd s = [] ↔ trim s = [] := by
  rcases trimStart_split s with ⟨before, hSplit, hBlank⟩
  constructor
  · intro hNone
    by_contra hSome
    rcases trimEnd_eq_append_trim hSome with ⟨front, hFront⟩
    rw [hNone, eq_comm, List.append_eq_nil_iff] at hFront
    exact hSome hFront.2
  · intro hNone
    calc
      trimEnd s = trimEnd (before ++ trimStart s) :=
        congrArg _ hSplit
      _ = trimEnd before := dropEndWhile_append_of_nil hNone
      _ = [] := dropEndWhile_of_forall hBlank

/- The last character is the same with and without the blanks in front. -/
theorem getLast?_trimEnd :
    (trimEnd s).getLast? = (trim s).getLast? := by
  by_cases hNone : trim s = []
  · rw [hNone, trimEnd_eq_nil_iff.mpr hNone]
  · rcases trimEnd_eq_append_trim hNone with ⟨before, hSplit⟩
    rw [hSplit, List.getLast?_append_of_ne_nil _ hNone]

/- A text without words holds nothing but blanks. -/
theorem isBlank_of_words_eq_nil
    (hNone : words s = []) :
    ∀ c ∈ s, isBlank c = true := by
  have hSteps : s.foldr wordsStep ([], []) = ([], []) := by
    unfold words at hNone
    rcases hParts : s.foldr wordsStep ([], []) with
      ⟨_ | ⟨c, word⟩, rest⟩
    · rw [hParts] at hNone
      rw [show rest = [] from hNone]
    · rw [hParts] at hNone
      cases hNone
  clear hNone
  induction s with
  | nil => simp
  | cons c s ih =>
      rw [List.foldr_cons, wordsStep] at hSteps
      by_cases hBlank : isBlank c = true
      · rw [if_pos hBlank, Prod.mk.injEq] at hSteps
        rcases hParts : s.foldr wordsStep ([], []) with
          ⟨_ | ⟨d, word⟩, rest⟩
        · rw [hParts] at hSteps ih
          have hRest : rest = [] := hSteps.2
          rw [List.forall_mem_cons]
          exact ⟨hBlank, ih (by rw [hRest])⟩
        · rw [hParts] at hSteps
          cases hSteps.2
      · rw [if_neg hBlank] at hSteps
        cases hSteps

end Text

end Rowstore

------------------------------------------------------------
-- Single Lines
------------------------------------------------------------

namespace Rowstore

namespace Shell

open Execution

variable {stamp last : Stamp} {line : String}
variable {held : List String} {sh : Shell}

theorem run_inSession
    {α : Type}
    (action : Action Depot α)
    (sh : Shell) :
    (inSession action).run.run sh =
      ((action.run.run sh.session).1,
        { sh with
          session := (action.run.run sh.session).2 }) := rfl

/-
  What the turn for a request does: the session serves the
  request and nothing else changes, and there is an answer to
  show.
-/
structure Serves
    (request? : Option Session.Request)
    (sh : Shell)
    (outcome : Except Error Step × Shell) : Prop where
  shell :
    outcome.2 =
      { sh with session := sh.session.afterAll request?.toList }
  answered : outcome.1 ≠ .ok .pending

theorem serves_nothing
    (sh : Shell)
    {answer : Except Error Step}
    (hAnswered : answer ≠ .ok .pending) :
    Serves none sh (answer, sh) where
  shell := rfl
  answered := hAnswered

theorem map_output_ne_pending
    {α : Type}
    (answer : Except Error α)
    (text : α → String) :
    answer.map (fun a => Step.output (text a)) ≠
      .ok .pending := by
  rcases answer with e | a
  · exact nofun
  · exact nofun

theorem after_statement
    (stamp : Stamp)
    (text : String)
    (s : Session Depot) :
    s.after (.statement stamp text) =
      ((Session.execute stamp text).run.run s).2 :=
  congrArg Prod.snd (run_bind_pure _ Session.Answer.result s)

theorem after_insertRow
    (table : String)
    (entries : List (String × String))
    (s : Session Depot) :
    s.after (.insertRow table entries) =
      ((Session.insertRow table entries).run.run s).2 :=
  congrArg Prod.snd (run_bind_pure _ Session.Answer.row s)

theorem Job.perform_command
    (stamp : Stamp)
    (line : String)
    (sh : Shell) :
    (command stamp line).perform sh =
      (runMeta stamp ((Text.words line.toList).headD [])
        (Text.words line.toList).tail).run.run sh := rfl

theorem Job.perform_statement
    (stamp : Stamp)
    (text : String)
    (sh : Shell) :
    (statement stamp text).perform sh =
      (((Session.execute stamp text).run.run sh.session).1.map
          fun r => .output r.render,
        { sh with
          session :=
            ((Session.execute stamp text).run.run
              sh.session).2 }) := rfl

/- To run a statement is to execute it in the session, and to show its result. -/
theorem run_run
    (stamp : Stamp)
    (text : String)
    (sh : Shell) :
    (run stamp text).run.run sh =
      (((Session.execute stamp text).run.run sh.session).1.map
          QueryResult.render,
        { sh with
          session :=
            ((Session.execute stamp text).run.run
              sh.session).2 }) := by
  unfold run
  rw [run_bind_pure, run_inSession]

theorem run_statement
    (stamp : Stamp)
    (text : String)
    (sh : Shell) :
    (do pure (.output (← run stamp text)) : Turn Step).run.run
        sh =
      (Job.statement stamp text).perform sh := by
  rw [run_bind_pure, run_run, Job.perform_statement]
  rcases ((Session.execute stamp text).run.run
    sh.session).1 with e | r
  · rfl
  · rfl

theorem serves_statement
    (stamp : Stamp)
    (text : String)
    (sh : Shell) :
    Serves (some (.statement stamp text)) sh
      ((Job.statement stamp text).perform sh) where
  shell := by
    change _ = { sh with session := sh.session.after _ }
    rw [after_statement]
    rfl
  answered := map_output_ne_pending _ QueryResult.render

theorem serves_insertWords
    (words : List (List Char))
    (sh : Shell) :
    Serves (insertion? words) sh
      ((insertWords words).run.run sh) := by
  cases words with
  | nil => exact serves_nothing sh nofun
  | cons table words =>
      unfold insertion? insertWords
      rw [run_bind, run_lift]
      dsimp only
      cases pairs words with
      | error e => exact serves_nothing sh nofun
      | ok entries =>
          dsimp only
          rw [run_bind_pure, run_inSession]
          constructor
          · change _ = { sh with session := sh.session.after _ }
            rw [after_insertRow]
          · exact map_output_ne_pending _ _

theorem serves_runMeta
    (stamp : Stamp)
    (word : List Char)
    (arguments : List (List Char))
    (sh : Shell) :
    Serves (commandRequest? stamp word arguments) sh
      ((runMeta stamp word arguments).run.run sh) := by
  have hShows
      (text : String) :
      Serves (some (.statement stamp text)) sh
        ((do pure (.output (← run stamp text)) :
          Turn Step).run.run sh) := by
    rw [run_statement]
    exact serves_statement stamp text sh
  unfold runMeta commandRequest?
  dsimp only
  generalize String.ofList (Text.lowerBasic word) = name
  -- First the commands that ask for something, then the others.
  split
  · exact hShows "SHOW DATABASES"
  · exact hShows "SHOW TABLES"
  · exact serves_insertWords arguments sh
  · split
    · exact serves_nothing sh nofun
    · exact serves_nothing sh nofun
    · exact serves_nothing sh nofun
    · contradiction
    · contradiction
    · contradiction
    · exact serves_nothing sh nofun

/- A job is done by serving its request, and has an answer. -/
theorem Job.serves_perform
    (j : Job)
    (sh : Shell) :
    Serves j.request? sh (j.perform sh) := by
  cases j with
  | command stamp line => exact serves_runMeta stamp _ _ sh
  | statement stamp text => exact serves_statement stamp text sh

/- A line is blank, ends the statement that it belongs to, or is held. -/
theorem push_eq
    (b : Buffer)
    (line : String) :
    b.push line =
      if isBlankLine line then b.flush
      else if endsStatement line then
        Buffer.flush ⟨b.lines ++ [withoutEnd line]⟩
      else (none, ⟨b.lines ++ [withoutEnd line]⟩) := by
  have hBlank :
      (Text.trimEnd line.toList).isEmpty = isBlankLine line := by
    rw [Bool.eq_iff_iff, isBlankLine, List.isEmpty_iff,
      List.isEmpty_iff, Text.trimEnd_eq_nil_iff]
  have hEnds :
      ((Text.trimEnd line.toList).getLast? = some ';') =
        (endsStatement line = true) := by
    rw [endsStatement, beq_iff_eq, Text.getLast?_trimEnd]
  unfold Buffer.push
  simp only [hBlank, hEnds]
  rfl

/- The held lines as one statement, if there are any. -/
theorem flush_held
    (held : List String) :
    Buffer.flush ⟨held.map withoutEnd⟩ =
      (if held.isEmpty then none else some (joined held),
        .empty) := by
  cases held with
  | nil => rfl
  | cons line held => rfl

/- While nothing is pending, a line with a dot is a meta command. -/
theorem run_handleLine_command
    (hNone : sh.buffer.isEmpty = true)
    (hMeta : isMeta line = true) :
    (handleLine stamp line).run.run sh =
      (Job.command stamp line).perform sh := by
  have hWords : Text.words line.toList ≠ [] := by
    intro hEmpty
    have hBlank := Text.isBlank_of_words_eq_nil hEmpty
    rw [isMeta, Text.trim, Text.trimStart,
      List.dropWhile_eq_nil_iff.mpr hBlank] at hMeta
    cases hMeta
  unfold handleLine
  rw [run_bind, run_get]
  dsimp only
  rw [hNone, hMeta, Bool.and_self, if_pos rfl,
    Job.perform_command]
  cases hSplit : Text.words line.toList with
  | nil => exact absurd hSplit hWords
  | cons word words => rfl

/- Any other line goes to the pending ones, and a statement that it completes is executed. -/
theorem run_handleLine_push
    (hOther : (sh.buffer.isEmpty && isMeta line) = false) :
    (handleLine stamp line).run.run sh =
      match (sh.buffer.push line).1 with
      | some text =>
        (Job.statement stamp text).perform
          { sh with buffer := (sh.buffer.push line).2 }
      | none =>
        (.ok .pending,
          { sh with buffer := (sh.buffer.push line).2 }) := by
  unfold handleLine
  rw [run_bind, run_get]
  dsimp only
  rw [hOther, if_neg Bool.false_ne_true]
  cases (sh.buffer.push line).1 with
  | none => rfl
  | some text => exact run_statement stamp text _

------------------------------------------------------------
-- Jobs In Sequence
------------------------------------------------------------

/- A job that was done has an answer to show. -/
theorem answerToLine_perform
    (j : Job)
    (sh : Shell) :
    answerToLine (j.perform sh).1 = [(j.perform sh).1] := by
  have hAnswered := (j.serves_perform sh).answered
  cases hAnswer : (j.perform sh).1 with
  | error e => rfl
  | ok step =>
      cases step with
      | pending => exact absurd hAnswer hAnswered
      | output text => rfl
      | quit => rfl

theorem performAll_cons
    (j : Job)
    (js : List Job)
    (sh : Shell) :
    performAll (j :: js) sh =
      ((j.perform sh).1 ::
          (performAll js (j.perform sh).2).1,
        (performAll js (j.perform sh).2).2) := rfl

theorem performAll_append
    (js ks : List Job)
    (sh : Shell) :
    performAll (js ++ ks) sh =
      ((performAll js sh).1 ++
          (performAll ks (performAll js sh).2).1,
        (performAll ks (performAll js sh).2).2) := by
  induction js generalizing sh with
  | nil => rfl
  | cons j js ih =>
      rw [List.cons_append, performAll_cons, performAll_cons,
        ih]
      rfl

/- Jobs are done by serving their requests, one after the other. -/
theorem shell_performAll
    (js : List Job)
    (sh : Shell) :
    (performAll js sh).2 =
      { sh with
        session :=
          sh.session.afterAll (js.filterMap Job.request?) } := by
  induction js generalizing sh with
  | nil => rfl
  | cons j js ih =>
      have hFirst := (j.serves_perform sh).shell
      rw [performAll_cons]
      dsimp only
      rw [ih, hFirst]
      unfold Session.afterAll
      cases hRequest : j.request? with
      | none => rw [List.filterMap_cons_none hRequest]; rfl
      | some r => rw [List.filterMap_cons_some hRequest]; rfl

/- Held lines are executed when they are closed. -/
theorem performAll_closing
    (stamp : Stamp)
    (held : List String)
    (sh : Shell) :
    performAll (closing stamp held) sh =
      match if held.isEmpty then none else some (joined held) with
      | some text =>
        ([((Job.statement stamp text).perform sh).1],
          ((Job.statement stamp text).perform sh).2)
      | none => ([], sh) := by
  cases held with
  | nil => rfl
  | cons line held => rfl

/- What a line does: a meta command, a statement that is closed, or one line more that is held. -/
theorem run_handleLine
    (stamp : Stamp)
    (line : String)
    (hHeld : sh.buffer = ⟨held.map withoutEnd⟩) :
    (answerToLine ((handleLine stamp line).run.run sh).1,
        ((handleLine stamp line).run.run sh).2) =
      if held.isEmpty && isMeta line then
        performAll [.command stamp line] sh
      else if isBlankLine line then
        performAll (closing stamp held)
          { sh with buffer := .empty }
      else if endsStatement line then
        performAll (closing stamp (held ++ [line]))
          { sh with buffer := .empty }
      else
        ([], { sh with
          buffer := ⟨(held ++ [line]).map withoutEnd⟩ }) := by
  have hNone : sh.buffer.isEmpty = held.isEmpty := by
    rw [hHeld, Buffer.isEmpty, List.isEmpty_map]
  have hMore :
      sh.buffer.lines ++ [withoutEnd line] =
        (held ++ [line]).map withoutEnd := by
    rw [hHeld, List.map_append]
    rfl
  -- A statement is executed while no line is pending.
  have hClosing
      (lines : List String)
      (hOther : (sh.buffer.isEmpty && isMeta line) = false)
      (hPush :
        sh.buffer.push line =
          Buffer.flush ⟨lines.map withoutEnd⟩) :
      (answerToLine ((handleLine stamp line).run.run sh).1,
          ((handleLine stamp line).run.run sh).2) =
        performAll (closing stamp lines)
          { sh with buffer := .empty } := by
    rw [run_handleLine_push hOther, hPush, flush_held,
      performAll_closing]
    dsimp only
    split
    · rw [answerToLine_perform]
    · rfl
  split
  · rename_i hCommand
    rw [Bool.and_eq_true, ← hNone] at hCommand
    rw [run_handleLine_command hCommand.1 hCommand.2,
      answerToLine_perform]
    rfl
  · rename_i hOther
    rw [← hNone, Bool.not_eq_true] at hOther
    have hPush := push_eq sh.buffer line
    rw [hMore] at hPush
    split
    · rename_i hBlank
      rw [if_pos hBlank] at hPush
      exact hClosing held hOther (hPush.trans (by rw [hHeld]))
    · rename_i hBlank
      rw [if_neg hBlank] at hPush
      split
      · rename_i hEnds
        rw [if_pos hEnds] at hPush
        exact hClosing (held ++ [line]) hOther hPush
      · rename_i hEnds
        rw [if_neg hEnds] at hPush
        rw [run_handleLine_push hOther, hPush]
        rfl

/- At the end of input the held lines are executed. -/
theorem run_finish
    (stamp : Stamp)
    (hHeld : sh.buffer = ⟨held.map withoutEnd⟩) :
    (answerAtEnd ((finish stamp).run.run sh).1,
        ((finish stamp).run.run sh).2) =
      performAll (closing stamp held)
        { sh with buffer := .empty } := by
  have hRun :
      (finish stamp).run.run sh =
        match sh.buffer.flush.1 with
        | some text =>
          (do pure (some (← run stamp text)) :
            Turn (Option String)).run.run
            { sh with buffer := sh.buffer.flush.2 }
        | none =>
          (.ok none,
            { sh with buffer := sh.buffer.flush.2 }) := by
    unfold finish
    rw [run_bind, run_get]
    dsimp only
    cases sh.buffer.flush.1 <;> rfl
  rw [hRun, hHeld, flush_held, performAll_closing]
  dsimp only
  split
  · rename_i text _
    rw [run_bind_pure, run_run, Job.perform_statement]
    dsimp only
    rcases ((Session.execute stamp text).run.run
      sh.session).1 with e | r
    · rfl
    · rfl
  · rfl

/- Lines are answered one after the other. -/
theorem attend_cons
    {answers : List (Except Error Step)}
    {sh' : Shell}
    (lines : List (Stamp × String))
    (hStep :
      (answerToLine ((handleLine stamp line).run.run sh).1,
        ((handleLine stamp line).run.run sh).2) =
        (answers, sh')) :
    attend last ((stamp, line) :: lines) sh =
      (answers ++ (attend last lines sh').1,
        (attend last lines sh').2) := by
  have hUnfold :
      attend last ((stamp, line) :: lines) sh =
        (answerToLine ((handleLine stamp line).run.run sh).1 ++
            (attend last lines
              ((handleLine stamp line).run.run sh).2).1,
          (attend last lines
            ((handleLine stamp line).run.run sh).2).2) := rfl
  rw [Prod.mk.injEq] at hStep
  rw [hUnfold, hStep.1, hStep.2]

/- A shell without pending lines. -/
theorem eq_of_buffer
    (hNone : sh.buffer = .empty) :
    { sh with buffer := .empty } = sh := by
  rw [← hNone]

/- Lines and the end of input behind them are attended to by doing their jobs in order. -/
theorem attend_eq_performAll
    (last : Stamp)
    (lines : List (Stamp × String))
    (hHeld : sh.buffer = ⟨held.map withoutEnd⟩) :
    attend last lines sh =
      performAll (journal last held lines)
        { sh with buffer := .empty } := by
  induction lines generalizing held sh with
  | nil => exact run_finish last hHeld
  | cons entry lines ih =>
      rcases entry with ⟨stamp, line⟩
      have hStep := run_handleLine stamp line hHeld
      -- After a job no line is held.
      have hNext
          (js : List Job)
          (hJobs :
            (answerToLine ((handleLine stamp line).run.run sh).1,
                ((handleLine stamp line).run.run sh).2) =
              performAll js { sh with buffer := .empty }) :
          attend last ((stamp, line) :: lines) sh =
            performAll (js ++ journal last [] lines)
              { sh with buffer := .empty } := by
        have hNone :
            (performAll js
              { sh with buffer := .empty }).2.buffer =
                .empty := by
          rw [shell_performAll]
        rw [attend_cons lines hJobs, @ih [] _ hNone,
          eq_of_buffer hNone, performAll_append]
      unfold journal
      split at hStep
      · rename_i hCommand
        rw [if_pos hCommand]
        rw [Bool.and_eq_true, List.isEmpty_iff] at hCommand
        rw [hCommand.1] at hHeld
        refine hNext [.command stamp line] ?_
        rw [eq_of_buffer hHeld]
        exact hStep
      · rename_i hOther
        rw [if_neg hOther]
        split at hStep
        · rename_i hBlank
          rw [if_pos hBlank]
          exact hNext _ hStep
        · rename_i hBlank
          rw [if_neg hBlank]
          split at hStep
          · rename_i hEnds
            rw [if_pos hEnds]
            exact hNext _ hStep
          · rename_i hEnds
            rw [if_neg hEnds, attend_cons lines hStep,
              @ih (held ++ [line]) _ rfl]
            rfl

------------------------------------------------------------
-- Which Statements Are Executed
------------------------------------------------------------

/- The first group with lines in front of it. -/
def behind
    (held : List String)
    (groups : List (Stamp × List String)) :
    List (Stamp × List String) :=
  groups.modifyHead fun g => (g.1, held ++ g.2)

theorem statements_closing
    (stamp : Stamp)
    (held : List String)
    (groups : List (Stamp × List String)) :
    (closing stamp held).filterMap Job.statement? ++
        groupStatements groups =
      groupStatements ((stamp, held) :: groups) := by
  cases held with
  | nil => rfl
  | cons line held => rfl

theorem behind_nil
    (groups : List (Stamp × List String)) :
    behind [] groups = groups := by
  cases groups with
  | nil => rfl
  | cons g groups => rfl

theorem behind_append
    (held : List String)
    (line : String)
    (groups : List (Stamp × List String)) :
    behind (held ++ [line]) groups =
      behind held
        (groups.modifyHead fun g => (g.1, line :: g.2)) := by
  cases groups with
  | nil => rfl
  | cons g groups => simp [behind]

theorem marked_command
    (hCommand : (held.isEmpty && isMeta line) = true)
    (lines : List (Stamp × String)) :
    marked (!held.isEmpty) ((stamp, line) :: lines) =
      (true, stamp, line) :: marked false lines := by
  simp [marked, hCommand]

theorem marked_other
    (hOther : ¬(held.isEmpty && isMeta line) = true)
    (lines : List (Stamp × String)) :
    marked (!held.isEmpty) ((stamp, line) :: lines) =
      (false, stamp, line) :: marked (staysOpen line) lines := by
  rw [Bool.not_eq_true] at hOther
  simp [marked, hOther]

theorem not_isEmpty_concat
    (held : List String)
    (line : String) :
    (!(held ++ [line]).isEmpty) = true := by
  simp

/- The lines that the jobs take as meta commands. -/
theorem commands_journal
    (last : Stamp)
    (held : List String)
    (lines : List (Stamp × String)) :
    (journal last held lines).filterMap Job.command? =
      commandLines (marked (!held.isEmpty) lines) := by
  have hClosing
      (stamp : Stamp)
      (held : List String) :
      (closing stamp held).filterMap Job.command? = [] := by
    cases held <;> rfl
  induction lines generalizing held with
  | nil => exact hClosing last held
  | cons entry lines ih =>
      rcases entry with ⟨stamp, line⟩
      unfold journal
      split
      · rename_i hCommand
        rw [marked_command hCommand]
        exact congrArg ((stamp, line) :: ·) (ih [])
      · rename_i hOther
        rw [marked_other hOther]
        change _ = commandLines (marked (staysOpen line) lines)
        split
        · rename_i hBlank
          rw [List.filterMap_append, hClosing, staysOpen, hBlank]
          exact ih []
        · rename_i hBlank
          split
          · rename_i hEnds
            rw [List.filterMap_append, hClosing, staysOpen,
              hEnds, Bool.not_true, Bool.and_false]
            exact ih []
          · rename_i hEnds
            have hOpen : staysOpen line = true := by
              simp [staysOpen, hBlank, hEnds]
            rw [ih, hOpen, not_isEmpty_concat]

/-
  Behind held lines the statements are those of the groups,
  the held lines belonging to the first one.
-/
theorem statements_journal
    (last : Stamp)
    (held : List String)
    (lines : List (Stamp × String)) :
    (journal last held lines).filterMap Job.statement? =
      groupStatements
        (behind held
          (cut last
            (statementLines (marked (!held.isEmpty) lines)))) := by
  induction lines generalizing held with
  | nil =>
      have hLast := statements_closing last held []
      rw [show groupStatements [] = [] from rfl,
        List.append_nil] at hLast
      rw [journal, hLast]
      simp [marked, statementLines, cut, behind]
  | cons entry lines ih =>
      rcases entry with ⟨stamp, line⟩
      have hClosed := ih []
      rw [behind_nil] at hClosed
      unfold journal
      split
      · rename_i hCommand
        rw [marked_command hCommand]
        rw [Bool.and_eq_true, List.isEmpty_iff] at hCommand
        rw [hCommand.1]
        exact ih []
      · rename_i hOther
        rw [marked_other hOther]
        change
          _ =
            groupStatements
              (behind held
                (cut last
                  ((stamp, line) ::
                    statementLines
                      (marked (staysOpen line) lines))))
        unfold cut
        split
        · rename_i hBlank
          have hOpen : staysOpen line = false := by
            simp [staysOpen, hBlank]
          rw [List.filterMap_append, hClosed, statements_closing,
            hOpen, behind, List.modifyHead_cons,
            List.append_nil]
          rfl
        · rename_i hBlank
          split
          · rename_i hEnds
            have hOpen : staysOpen line = false := by
              simp [staysOpen, hEnds]
            rw [List.filterMap_append, hClosed,
              statements_closing, hOpen]
            rfl
          · rename_i hEnds
            have hOpen : staysOpen line = true := by
              simp [staysOpen, hBlank, hEnds]
            rw [ih, behind_append, hOpen, not_isEmpty_concat]

------------------------------------------------------------
-- Every Line Once
------------------------------------------------------------

theorem feed_cons
    (last stamp : Stamp)
    (line : String)
    (lines : List (Stamp × String))
    (sh : Shell) :
    feed last ((stamp, line) :: lines) sh =
      writtenFor ((handleLine stamp line).run.run sh).1 ++
        (if leaves ((handleLine stamp line).run.run sh).1 then
          close last ((handleLine stamp line).run.run sh).2
        else
          feed last lines
            ((handleLine stamp line).run.run sh).2) := rfl

/-
  The program writes what the shell answers to its lines, up
  to the first one that asks to leave.
-/
theorem feed_eq_attend
    (last : Stamp)
    (lines : List (Stamp × String))
    (sh : Shell) :
    ∃ taken,
      taken <+: lines ∧
        feed last lines sh =
          (attend last taken sh).1.flatMap writtenFor := by
  have hLine
      (answer : Except Error Step) :
      (answerToLine answer).flatMap writtenFor =
        writtenFor answer := by
    rcases answer with e | _ | _ | _ <;> rfl
  have hEnd
      (sh : Shell) :
      close last sh =
        (attend last [] sh).1.flatMap writtenFor := by
    change
      writtenAtEnd ((finish last).run.run sh).1 =
        (answerAtEnd ((finish last).run.run sh).1).flatMap
          writtenFor
    rcases ((finish last).run.run sh).1 with e | _ | _ <;> rfl
  induction lines generalizing sh with
  | nil => exact ⟨[], List.nil_prefix, hEnd sh⟩
  | cons entry lines ih =>
      rcases entry with ⟨stamp, line⟩
      rcases ih ((handleLine stamp line).run.run sh).2 with
        ⟨taken, hTaken, hRest⟩
      by_cases hLeaves :
          leaves ((handleLine stamp line).run.run sh).1 = true
      · refine
          ⟨[(stamp, line)], by simp, ?_⟩
        rw [feed_cons, if_pos hLeaves, attend_cons [] rfl,
          List.flatMap_append, hLine, ← hEnd]
      · refine
          ⟨(stamp, line) :: taken,
            (List.prefix_cons_inj _).mpr hTaken, ?_⟩
        rw [feed_cons, if_neg hLeaves, attend_cons taken rfl,
          List.flatMap_append, hLine, ← hRest]

/-
  A shell without pending lines takes lines and then the end of
  input.  It does its jobs once each and in order, whatever
  they answer: the commands are the lines with a dot while
  nothing is pending, the statements those that the other lines
  hold when they are cut behind semicolons and at blank lines.
  The session serves the requests of the jobs, of which each
  statement is one, and no line is left over.  The program does
  the same with its lines up to the first one that asks to
  leave.
-/
theorem lines_are_executed_once
    (config : Config)
    (session : Session Depot)
    (last : Stamp)
    (lines : List (Stamp × String)) :
    let sh : Shell :=
      { config := config, session := session, buffer := .empty }
    let jobs := journal last [] lines
    attend last lines sh = performAll jobs sh ∧
      jobs.filterMap Job.statement? = statements last lines ∧
        jobs.filterMap Job.command? =
            commandLines (marked false lines) ∧
          (attend last lines sh).2.session =
              session.afterAll (jobs.filterMap Job.request?) ∧
            (attend last lines sh).2.buffer = .empty ∧
              ∃ taken,
                taken <+: lines ∧
                  feed last lines sh =
                    (attend last taken sh).1.flatMap
                      writtenFor := by
  intro sh jobs
  have hRun : attend last lines sh = performAll jobs sh :=
    attend_eq_performAll last lines rfl
  have hLeft := shell_performAll jobs sh
  rw [← hRun] at hLeft
  refine ⟨hRun, ?_, commands_journal last [] lines, ?_, ?_,
    feed_eq_attend last lines sh⟩
  · have hAll := statements_journal last [] lines
    rwa [behind_nil] at hAll
  · rw [hLeft]
  · rw [hLeft]

end Shell

end Rowstore
