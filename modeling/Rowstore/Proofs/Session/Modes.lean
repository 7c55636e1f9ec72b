import Rowstore.Proofs.Session.Interchange
import Rowstore.Proofs.Session.Invariants

/-
  Outside of transactions the two modes agree.  Literal mode
  takes the snapshot of a change before its work, and scoped
  mode keeps a copy and takes it after the change is stored;
  if every change succeeds and announces something, and no
  call of the backend fails, then the stored collection, the
  snapshots and all answers are the same.

  What this takes of a backend is that storing a collection
  and taking a snapshot can be done in either order.

  Main declarations:
    * `Backend.Orderly` and `Depot.orderly`
    * `Session.Twins` and `Session.twins_after`
    * `Session.modes_agree`
-/

------------------------------------------------------------
-- Backends Whose Calls Can Be Done In Either Order
------------------------------------------------------------

namespace Rowstore

open Execution

/-
  As long as a backend works, it does not change when it is
  read, a collection can be stored and a snapshot be taken,
  and the order of these two does not matter.
-/
structure Backend.Orderly
    (β : Type)
    [Backend β]
    (Works : β → Prop)
    (saved pushed : Collection → β → β) : Prop where
  load : Reads (Backend.load : Call β Collection)
  save :
    ∀ {b : β} (c : Collection), Works b →
      (Backend.save c : Call β Unit).run.run b =
        (.ok (), saved c b)
  push :
    ∀ {b : β} (c : Collection), Works b →
      (Backend.push c : Call β Unit).run.run b =
        (.ok (), pushed c b)
  swap :
    ∀ (c p : Collection) (b : β),
      saved c (pushed p b) = pushed p (saved c b)
  works_saved :
    ∀ {b : β} (c : Collection), Works b → Works (saved c b)
  works_pushed :
    ∀ {b : β} (c : Collection), Works b → Works (pushed c b)
  works_pop :
    ∀ {b : β}, Works b →
      Works
        ((Backend.pop :
          Call β (Option Collection)).run.run b).2

namespace Memory

/- The memory with another collection. -/
def saved
    (c : Collection)
    (m : Memory) : Memory :=
  { m with stored := c }

/- The memory with one more snapshot. -/
def pushed
    (c : Collection)
    (m : Memory) : Memory :=
  { m with stack := pushWithin m.limit c m.stack }

theorem orderly :
    Backend.Orderly Memory (fun _ => True) saved pushed where
  load := by
    apply Reads.bind Reads.of_get
    intro m
    exact Reads.of_pure _
  save := fun _ _ => rfl
  push := fun _ _ => rfl
  swap := fun _ _ _ => rfl
  works_saved := fun _ _ => trivial
  works_pushed := fun _ _ => trivial
  works_pop := fun _ => trivial

end Memory

namespace Folder

/- The folder with another collection. -/
def saved
    (c : Collection)
    (f : Folder) : Folder :=
  { f with
    directory :=
      f.directory.replaced databasesFile
        (textOf f.options c.toJson) }

/- The folder with other snapshots. -/
def withSnapshots
    (stack : List Collection)
    (f : Folder) : Folder :=
  { f with
    directory :=
      f.directory.replaced snapshotsFile
        (textOf f.options (stackToJson stack))
    stack := stack }

/- The folder with one more snapshot. -/
def pushed
    (c : Collection)
    (f : Folder) : Folder :=
  f.withSnapshots
    (pushWithin f.options.snapshotLimit c f.stack)

/- The two files do not share a temporary file. -/
theorem replaced_comm
    (text text' : String)
    (d : Directory) :
    (d.replaced snapshotsFile text).replaced databasesFile
        text' =
      (d.replaced databasesFile text').replaced
        snapshotsFile text := by
  have hFiles : databasesFile ≠ snapshotsFile := by decide
  have hLeft :
      databasesFile ≠ Directory.temporary snapshotsFile := by
    decide
  have hRight :
      snapshotsFile ≠ Directory.temporary databasesFile := by
    decide
  simp only [Directory.replaced, Directory.put,
    Directory.remove, Directory.mk.injEq, and_true]
  funext n
  by_cases hDatabases : n = databasesFile
  · subst hDatabases
    simp [hFiles, hLeft]
  · by_cases hSnapshots : n = snapshotsFile
    · subst hSnapshots
      simp [hDatabases, hRight]
    · simp only [hDatabases, hSnapshots, if_false]
      split
      · split
        · rfl
        · rfl
      · rfl

theorem run_setStack_of_works
    {f : Folder}
    (hWorks : f.Works)
    (stack : List Collection) :
    (setStack stack).run.run f =
      (.ok (), f.withSnapshots stack) := by
  rw [run_setStack, hWorks.faultOf]
  rfl

theorem orderly :
    Backend.Orderly Folder Works saved pushed where
  load := by
    apply Reads.bind Reads.of_get
    intro f
    exact Reads.of_lift _
  save := by
    intro f c hWorks
    change (writeFile databasesFile c.toJson).run.run f = _
    rw [run_writeFile, hWorks.faultOf]
    rfl
  push := by
    intro f c hWorks
    change (push c).run.run f = _
    simp only [push, run_bind, run_get,
      run_setStack_of_works hWorks]
    rfl
  swap := by
    intro c p f
    have hDirectory :=
      replaced_comm
        (textOf f.options
          (stackToJson
            (pushWithin f.options.snapshotLimit p f.stack)))
        (textOf f.options c.toJson) f.directory
    simp only [saved, pushed, withSnapshots, hDirectory]
  works_saved := fun _ hWorks => hWorks
  works_pushed := fun _ hWorks => hWorks
  works_pop := by
    intro f hWorks
    change Works (pop.run.run f).2
    simp only [pop, run_bind, run_get,
      run_setStack_of_works hWorks, run_pure]
    exact hWorks

end Folder

namespace Depot

/- Nothing keeps the files of a directory, if there is one, from being replaced. -/
def Works : Depot → Prop
| memory _ => True
| folder f => f.Works

/- The backend with another collection. -/
def saved (c : Collection) : Depot → Depot
| memory m => memory (m.saved c)
| folder f => folder (f.saved c)

/- The backend with one more snapshot. -/
def pushed (c : Collection) : Depot → Depot
| memory m => memory (m.pushed c)
| folder f => folder (f.pushed c)

theorem orderly :
    Backend.Orderly Depot Works saved pushed where
  load := by
    intro b
    change ((call Memory.load Folder.load).run.run b).2 = b
    cases b with
    | memory m =>
        rw [run_call_memory]
        exact congrArg memory (Memory.orderly.load m)
    | folder f =>
        rw [run_call_folder]
        exact congrArg folder (Folder.orderly.load f)
  save := by
    intro b c hWorks
    change
      (call (Memory.save c) (Folder.save c)).run.run b = _
    cases b with
    | memory m =>
        rw [run_call_memory]
        rfl
    | folder f =>
        have hRun := Folder.orderly.save c hWorks
        change (Folder.save c).run.run f = _ at hRun
        rw [run_call_folder, hRun]
        rfl
  push := by
    intro b c hWorks
    change
      (call (Memory.push c) (Folder.push c)).run.run b = _
    cases b with
    | memory m =>
        rw [run_call_memory]
        rfl
    | folder f =>
        have hRun := Folder.orderly.push c hWorks
        change (Folder.push c).run.run f = _ at hRun
        rw [run_call_folder, hRun]
        rfl
  swap := by
    intro c p b
    cases b with
    | memory m => rfl
    | folder f =>
        exact congrArg folder (Folder.orderly.swap c p f)
  works_saved := by
    intro b c hWorks
    cases b with
    | memory m => trivial
    | folder f => exact Folder.orderly.works_saved c hWorks
  works_pushed := by
    intro b c hWorks
    cases b with
    | memory m => trivial
    | folder f => exact Folder.orderly.works_pushed c hWorks
  works_pop := by
    intro b hWorks
    change
      Works ((call Memory.pop Folder.pop).run.run b).2
    cases b with
    | memory m =>
        rw [run_call_memory]
        trivial
    | folder f =>
        rw [run_call_folder]
        exact Folder.orderly.works_pop hWorks

end Depot

end Rowstore

------------------------------------------------------------
-- Twins
------------------------------------------------------------

namespace Rowstore

open Execution

namespace Session

section

variable {β : Type} [Backend β]
variable {Works : β → Prop}
variable {saved pushed : Collection → β → β}

/- The session in another mode. -/
def inMode
    (s : Session β)
    (mode : Mode) : Session β :=
  { s with mode := mode }

/-
  A session of literal mode and one of scoped mode have all
  else in common, outside of transactions and over a backend
  that works.
-/
structure Twins
    (Works : β → Prop)
    (s t : Session β) : Prop where
  same : t = s.inMode .scoped
  literal : s.mode = .literal
  outside : s.depth = 0
  works : Works s.backend

omit [Backend β] in
theorem Twins.selection
    {s t : Session β}
    (hTwins : Twins Works s t) :
    t.selection = s.selection := by
  rw [hTwins.same]
  rfl

omit [Backend β] in
theorem Twins.depth
    {s t : Session β}
    (hTwins : Twins Works s t) :
    t.depth = s.depth := by
  rw [hTwins.same]
  rfl

omit [Backend β] in
theorem twins_onBackend
    {α : Type}
    {call : Call β α}
    (hKeeps : ∀ {b}, Works b → Works (call.run.run b).2) :
    Matches (Twins Works) (Twins Works) (onBackend call)
      (onBackend call) (· = ·) := by
  rintro s _ ⟨rfl, hLiteral, hOutside, hWorks⟩
  have hAfter := hKeeps hWorks
  rcases hRun : call.run.run s.backend with ⟨answer, b⟩
  rw [hRun] at hAfter
  rw [run_onBackend hRun,
    run_onBackend (s := s.inMode .scoped) hRun]
  exact
    ⟨{ same := rfl
       literal := hLiteral
       outside := hOutside
       works := hAfter }, SameAnswer.refl answer⟩

omit [Backend β] in
theorem twins_setSelection
    {id id' : Option DatabaseId}
    (hSame : id = id') :
    Matches (Twins Works) (Twins Works) (setSelection id)
      (setSelection id') (fun _ _ => True) := by
  subst hSame
  apply Matches.of_modify
  rintro s _ ⟨rfl, hLiteral, hOutside, hWorks⟩
  exact
    { same := rfl
      literal := hLiteral
      outside := hOutside
      works := hWorks }

omit [Backend β] in
theorem twins_setDepth
    {n n' : Nat}
    (hLeft : n = 0)
    (hRight : n' = 0) :
    Matches (Twins Works) (Twins Works) (setDepth n)
      (setDepth n') (fun _ _ => True) := by
  subst hLeft
  subst hRight
  apply Matches.of_modify
  rintro s _ ⟨rfl, hLiteral, hOutside, hWorks⟩
  exact
    { same := rfl
      literal := hLiteral
      outside := rfl
      works := hWorks }

omit [Backend β] in
theorem twins_notify (n : Notice) :
    Matches (Twins Works) (Twins Works) (notify n)
      (notify n) (fun _ _ => True) := by
  apply Matches.of_modify
  rintro s _ ⟨rfl, hLiteral, hOutside, hWorks⟩
  exact
    { same := rfl
      literal := hLiteral
      outside := hOutside
      works := hWorks }

------------------------------------------------------------
-- Tasks Without Snapshots
------------------------------------------------------------

variable (hOrderly : Backend.Orderly β Works saved pushed)

include hOrderly

theorem twins_load :
    Matches (Twins Works) (Twins Works)
      (onBackend Backend.load : Action β Collection)
      (onBackend Backend.load) (· = ·) := by
  apply twins_onBackend
  intro b hWorks
  rw [hOrderly.load b]
  exact hWorks

theorem twins_read
    (stamp : Stamp)
    (c : Command) :
    Matches (Twins Works) (Twins Works)
      (read stamp c : Action β QueryResult) (read stamp c)
      (· = ·) := by
  apply Matches.bind (twins_load hOrderly)
  rintro current _ rfl
  apply Matches.bind Matches.of_get
  intro s t hTwins
  simp only [hTwins.selection]
  apply Matches.bind (twins_setSelection rfl)
  intro _ _ _
  apply Matches.bind (Matches.of_lift (SameAnswer.refl _))
  rintro o _ rfl
  exact Matches.of_pure rfl

theorem twins_choose (name : String) :
    Matches (Twins Works) (Twins Works)
      (choose name : Action β Unit) (choose name)
      (fun _ _ => True) := by
  apply Matches.bind (twins_load hOrderly)
  rintro current _ rfl
  cases current.findByName? name with
  | none => exact Matches.of_throw _
  | some d => exact twins_setSelection rfl

/- Outside of transactions the depth stays zero. -/
theorem twins_takeBack :
    Matches (Twins Works) (Twins Works)
      (takeBack : Action β (Option Collection)) takeBack
      (· = ·) := by
  apply Matches.bind (twins_onBackend hOrderly.works_pop)
  rintro found _ rfl
  cases found with
  | none =>
      apply Matches.bind (twins_setDepth rfl rfl)
      intro _ _ _
      exact Matches.of_pure rfl
  | some c =>
      apply Matches.bind Matches.of_get
      intro s t hTwins
      have hOutside : t.depth = 0 :=
        hTwins.depth.trans hTwins.outside
      apply Matches.bind
        (twins_setDepth (by rw [hTwins.outside])
          (by rw [hOutside]))
      intro _ _ _
      exact Matches.of_pure rfl

theorem twins_save (c : Collection) :
    Matches (Twins Works) (Twins Works)
      (onBackend (Backend.save c) : Action β Unit)
      (onBackend (Backend.save c)) (· = ·) := by
  apply twins_onBackend
  intro b hWorks
  rw [hOrderly.save c hWorks]
  exact hOrderly.works_saved c hWorks

theorem twins_restore (c : Collection) :
    Matches (Twins Works) (Twins Works)
      (restore c : Action β Unit) (restore c)
      (fun _ _ => True) := by
  apply Matches.bind (twins_save hOrderly c)
  intro _ _ _
  apply Matches.bind Matches.of_get
  intro s t hTwins
  rw [hTwins.selection]
  cases s.selection.bind c.get? with
  | none => exact twins_setSelection rfl
  | some d => exact twins_notify _

theorem twins_rollback :
    Matches (Twins Works) (Twins Works)
      (control .rollback : Action β QueryResult)
      (control .rollback) (· = ·) := by
  apply Matches.bind (twins_takeBack hOrderly)
  rintro found _ rfl
  cases found with
  | none => exact Matches.of_pure rfl
  | some c =>
      apply Matches.bind (twins_restore hOrderly c)
      intro _ _ _
      exact Matches.of_pure rfl

------------------------------------------------------------
-- Changes
------------------------------------------------------------

/- The session after a change that was announced, over a given backend. -/
def changed
    (s : Session β)
    (b : β)
    (w : Workspace)
    (n : Notice) : Session β :=
  { s with
    backend := b
    selection := w.selection
    notices := s.notices ++ [n] }

/- Literal mode takes its snapshot before the work. -/
theorem run_beforeChange_of_literal
    {s : Session β}
    (hMode : s.mode = .literal)
    (hWorks : Works s.backend)
    (c : Collection) :
    (beforeChange c).run.run s =
      (.ok (), { s with backend := pushed c s.backend }) := by
  have hPush := run_onBackend (hOrderly.push c hWorks)
  simp only [beforeChange, run_bind, run_get, hMode,
    beq_self_eq_true, if_true]
  rw [← hMode]
  exact hPush

/- After the work it only stores and announces. -/
theorem run_settle_of_literal
    {s : Session β}
    (hWorks : Works s.backend)
    (w : Workspace)
    (n : Notice) :
    (settle none w n).run.run s =
      (.ok (),
        s.changed (saved w.collection s.backend) w n) := by
  have hSave := run_onBackend (hOrderly.save w.collection hWorks)
  simp only [settle, run_bind, hSave, setSelection,
    run_modify, notify, changed]

theorem run_afterChange_of_scoped
    {s : Session β}
    (hMode : s.mode = .scoped)
    (hOutside : s.depth = 0)
    (hWorks : Works s.backend)
    (c : Collection) :
    (afterChange c).run.run s =
      (.ok (), { s with backend := pushed c s.backend }) := by
  have hNeeds : s.needsPrevious = true := by
    simp [needsPrevious, hMode, hOutside]
  simp only [afterChange, run_bind, run_get, hNeeds, if_true,
    run_onBackend (hOrderly.push c hWorks)]

/- Scoped mode takes its snapshot in between. -/
theorem run_settle_of_scoped
    {s : Session β}
    (hMode : s.mode = .scoped)
    (hOutside : s.depth = 0)
    (hWorks : Works s.backend)
    (c : Collection)
    (w : Workspace)
    (n : Notice) :
    (settle (some c) w n).run.run s =
      (.ok (),
        s.changed (pushed c (saved w.collection s.backend))
          w n) := by
  have hSave := run_onBackend (hOrderly.save w.collection hWorks)
  have hAfter :=
    run_afterChange_of_scoped hOrderly
      (s :=
        { s with
          backend := saved w.collection s.backend
          selection := w.selection })
      hMode hOutside
      (hOrderly.works_saved w.collection hWorks) c
  simp only [settle, run_bind, hSave, setSelection,
    run_modify, hAfter, notify, changed]

/- What is known of a change of literal mode that succeeds and announces something. -/
theorem announced_of_change
    {s s' : Session β}
    (hMode : s.mode = .literal)
    (hWorks : Works s.backend)
    {α : Type}
    {work : Work (α × Option Notice)}
    {a : α}
    (hRun : (change work).run.run s = (.ok a, s'))
    (hSent : s'.notices ≠ s.notices) :
    ∃ c n w,
      (Backend.load : Call β Collection).run.run s.backend =
          (.ok c, s.backend) ∧
        work.run.run
            { collection := c
              selection := s.selection } =
          (.ok (a, some n), w) ∧
        s' =
          s.changed
            (saved w.collection (pushed c s.backend)) w n := by
  rcases run_bind_ok hRun with ⟨c, s₁, hFirst, hRest⟩
  have hSame := hOrderly.load s.backend
  rcases hLoad :
      (Backend.load : Call β Collection).run.run
        s.backend with ⟨answer, b⟩
  rw [hLoad] at hSame
  subst hSame
  rw [run_onBackend hLoad, Prod.mk.injEq] at hFirst
  rcases hFirst with ⟨rfl, rfl⟩
  rcases run_bind_ok hRest with ⟨_, s₂, hBefore, hRest⟩
  rw [run_beforeChange_of_literal hOrderly hMode hWorks]
    at hBefore
  cases hBefore
  rcases run_bind_ok hRest with ⟨t, s₃, hGet, hRest⟩
  cases hGet
  rcases hWork :
      work.run.run
        { collection := c
          selection := s.selection } with
    ⟨e | ⟨a', notice⟩, w⟩
  · simp only [hWork] at hRest
    cases hRest
  simp only [hWork] at hRest
  cases notice with
  | none =>
      cases hRest
      exact absurd rfl hSent
  | some n =>
      rcases run_bind_ok hRest with ⟨_, s₄, hAnswer, hRest⟩
      cases hAnswer
      rcases run_bind_ok hRest with ⟨_, s₅, hSettle, hDone⟩
      have hNeeds :
          ¬({ s with backend := pushed c s.backend } :
            Session β).needsPrevious = true := by
        simp [needsPrevious, hMode]
      rw [if_neg hNeeds, run_settle_of_literal hOrderly
        (hOrderly.works_pushed c hWorks)] at hSettle
      cases hSettle
      cases hDone
      exact ⟨c, n, w, rfl, hWork, rfl⟩

/- The same change in scoped mode, outside of transactions. -/
theorem run_change_of_scoped
    {s : Session β}
    (hMode : s.mode = .scoped)
    (hOutside : s.depth = 0)
    (hWorks : Works s.backend)
    {α : Type}
    {work : Work (α × Option Notice)}
    {c : Collection}
    (hLoad :
      (Backend.load : Call β Collection).run.run s.backend =
        (.ok c, s.backend))
    {a : α}
    {n : Notice}
    {w : Workspace}
    (hWork :
      work.run.run
          { collection := c
            selection := s.selection } =
        (.ok (a, some n), w)) :
    (change work).run.run s =
      (.ok a,
        s.changed (pushed c (saved w.collection s.backend))
          w n) := by
  have hOther : (s.mode == Mode.literal) = false := by
    rw [hMode]
    rfl
  have hNeeds : s.needsPrevious = true := by
    simp [needsPrevious, hMode, hOutside]
  have hSettle :=
    run_settle_of_scoped hOrderly hMode hOutside hWorks c w n
  simp only [change, changeLoaded, beforeChange, run_bind,
    run_onBackend hLoad, run_get, hOther, Bool.false_eq_true,
    if_false, run_pure, hWork, run_lift, hNeeds, if_true,
    hSettle]

/- A change that is announced does the same in both modes. -/
theorem twins_change
    {s t : Session β}
    (hTwins : Twins Works s t)
    {α : Type}
    {work : Work (α × Option Notice)}
    {a : α}
    (hOk : ((change work).run.run s).1 = .ok a)
    (hSent :
      ((change work).run.run s).2.notices ≠ s.notices) :
    Twins Works ((change work).run.run s).2
        ((change work).run.run t).2 ∧
      ((change work).run.run t).1 = .ok a := by
  rcases hTwins with ⟨rfl, hLiteral, hOutside, hWorks⟩
  rcases hRun : (change work).run.run s with ⟨answer, s'⟩
  rw [hRun] at hOk hSent
  simp only at hOk hSent
  subst hOk
  rcases announced_of_change hOrderly hLiteral hWorks hRun
    hSent with ⟨c, n, w, hLoad, hWork, rfl⟩
  have hOther :=
    run_change_of_scoped hOrderly
      (s := s.inMode .scoped) rfl hOutside hWorks hLoad hWork
  rw [hOther]
  refine ⟨?_, rfl⟩
  exact
    { same := by
        simp only [changed, inMode, hOrderly.swap]
      literal := hLiteral
      outside := hOutside
      works :=
        hOrderly.works_saved _
          (hOrderly.works_pushed _ hWorks) }

------------------------------------------------------------
-- Requests
------------------------------------------------------------

/- The task is to change something. -/
def Task.isChange : Task → Bool
| .change _ => true
| _ => false

/- A request that neither begins nor commits. -/
def Request.IsPlain (r : Request) : Prop :=
  r.control? ≠ some .begin ∧ r.control? ≠ some .commit

instance (r : Request) : Decidable r.IsPlain :=
  inferInstanceAs (Decidable (_ ∧ _))

/- If the request is to change something, it succeeds with a notice. -/
def Announces
    (s : Session β)
    (r : Request) : Prop :=
  r.task.isChange = true →
    (s.handle r).1.isOk = true ∧
      (s.after r).notices ≠ s.notices

instance
    (s : Session β)
    (r : Request) : Decidable (s.Announces r) :=
  inferInstanceAs (Decidable (_ → _))

/- The tasks that take no snapshot do not depend on the mode. -/
theorem twins_perform
    {task : Task}
    (hChange : task.isChange = false)
    (hBegin : task ≠ .control .begin)
    (hCommit : task ≠ .control .commit) :
    Matches (Twins Works) (Twins Works)
      (perform task : Action β Answer) (perform task)
      (· = ·) := by
  cases task with
  | reject e => exact Matches.of_throw e
  | control c =>
      cases c with
      | begin => exact absurd rfl hBegin
      | commit => exact absurd rfl hCommit
      | rollback =>
          apply Matches.bind (twins_rollback hOrderly)
          rintro result _ rfl
          exact Matches.of_pure rfl
  | read stamp c =>
      apply Matches.bind (twins_read hOrderly stamp c)
      rintro result _ rfl
      exact Matches.of_pure rfl
  | change work => cases hChange
  | choose name =>
      apply Matches.bind (twins_choose hOrderly name)
      intro _ _ _
      exact Matches.of_pure rfl

/- A request has the same answer in both modes, and twins stay twins. -/
theorem twins_after
    {s t : Session β}
    (hTwins : Twins Works s t)
    {r : Request}
    (hPlain : r.IsPlain)
    (hAnnounces : s.Announces r) :
    Twins Works (s.after r) (t.after r) ∧
      (t.handle r).1 = (s.handle r).1 := by
  unfold Announces at hAnnounces
  unfold after handle at hAnnounces ⊢
  rw [run_serve] at hAnnounces
  rw [run_serve, run_serve]
  cases hChange : r.task.isChange with
  | false =>
      have hBegin : r.task ≠ .control .begin := fun hTask =>
        hPlain.1 ((control?_eq_some_iff r _).mpr hTask)
      have hCommit : r.task ≠ .control .commit := fun hTask =>
        hPlain.2 ((control?_eq_some_iff r _).mpr hTask)
      rcases twins_perform hOrderly hChange hBegin hCommit s
        t hTwins with ⟨hEnd, hSame⟩
      exact ⟨hEnd, hSame.eq.symm⟩
  | true =>
      rcases hAnnounces hChange with ⟨hOk, hSent⟩
      cases hTask : r.task with
      | change work =>
          rw [hTask] at hOk hSent
          cases hAnswer :
              ((perform (.change work) :
                Action β Answer).run.run s).1 with
          | error e =>
              rw [hAnswer] at hOk
              cases hOk
          | ok a => exact twins_change hOrderly hTwins hAnswer hSent
      | reject e =>
          rw [hTask] at hChange
          cases hChange
      | control c =>
          rw [hTask] at hChange
          cases hChange
      | read stamp c =>
          rw [hTask] at hChange
          cases hChange
      | choose name =>
          rw [hTask] at hChange
          cases hChange

end

------------------------------------------------------------
-- Runs
------------------------------------------------------------

section

variable {β : Type} [Backend β]

/- The session before the request with a number, or after all requests. -/
def reached
    (s : Session β)
    (rs : List Request)
    (n : Nat) : Session β :=
  s.afterAll (rs.take n)

theorem reached_succ
    (s : Session β)
    {rs : List Request}
    {n : Nat}
    {r : Request}
    (hRequest : rs[n]? = some r) :
    s.reached rs (n + 1) = (s.reached rs n).after r := by
  unfold reached afterAll
  rw [List.take_add_one, hRequest, List.foldl_append]
  rfl

theorem reached_succ_of_none
    (s : Session β)
    {rs : List Request}
    {n : Nat}
    (hDone : rs[n]? = none) :
    s.reached rs (n + 1) = s.reached rs n := by
  unfold reached
  rw [List.take_add_one, hDone]
  simp

variable {Works : β → Prop}
variable {saved pushed : Collection → β → β}

theorem twins_reached
    (hOrderly : Backend.Orderly β Works saved pushed)
    {s t : Session β}
    (hTwins : Twins Works s t)
    {rs : List Request}
    (hPlain : ∀ r ∈ rs, r.IsPlain)
    (hAnnounces :
      ∀ n < rs.length, ∀ r ∈ rs[n]?,
        (s.reached rs n).Announces r)
    (n : Nat) :
    Twins Works (s.reached rs n) (t.reached rs n) := by
  induction n with
  | zero => exact hTwins
  | succ n ih =>
      cases hRequest : rs[n]? with
      | none =>
          rw [reached_succ_of_none s hRequest,
            reached_succ_of_none t hRequest]
          exact ih
      | some r =>
          rw [reached_succ s hRequest, reached_succ t hRequest]
          have hPlace :=
            (List.getElem?_eq_some_iff.mp hRequest).1
          exact
            (twins_after hOrderly ih
              (hPlain r (List.mem_of_getElem? hRequest))
              (hAnnounces n hPlace r hRequest)).1

end

/-
  Outside of transactions a session of literal mode and one
  of scoped mode have the same backend, selection, depth and
  notices before and after every request, and the request has
  the same answer in both, if no request begins or commits
  and every change succeeds and announces something.
-/
theorem modes_agree
    {s : Session Depot}
    (hLiteral : s.mode = .literal)
    (hOutside : s.depth = 0)
    (hWorks : s.backend.Works)
    {rs : List Request}
    (hPlain : ∀ r ∈ rs, r.IsPlain)
    (hAnnounces :
      ∀ n < rs.length, ∀ r ∈ rs[n]?,
        (s.reached rs n).Announces r)
    (n : Nat) :
    let s' := s.reached rs n
    let t' := (s.inMode .scoped).reached rs n
    t'.backend = s'.backend ∧ t'.selection = s'.selection ∧
      t'.depth = s'.depth ∧ t'.notices = s'.notices ∧
      ∀ r ∈ rs[n]?, (t'.handle r).1 = (s'.handle r).1 := by
  intro s' t'
  have hTwins : Twins Depot.Works s (s.inMode .scoped) :=
    { same := rfl
      literal := hLiteral
      outside := hOutside
      works := hWorks }
  have hReached : Twins Depot.Works s' t' :=
    twins_reached Depot.orderly hTwins hPlain hAnnounces n
  refine
    ⟨?_, hReached.selection, hReached.depth, ?_, ?_⟩
  · rw [hReached.same]
    rfl
  · rw [hReached.same]
    rfl
  · intro r hRequest
    have hLast :=
      (List.getElem?_eq_some_iff.mp hRequest).1
    exact
      (twins_after Depot.orderly hReached
        (hPlain r (List.mem_of_getElem? hRequest))
        (hAnnounces n hLast r hRequest)).2

/-
  In a memory that keeps two snapshots a row is inserted, the
  insertion is undone, and the table is read: in both modes
  the oldest snapshot was dropped.
-/
theorem modes_agree_on_rollback :
    let s : Session Depot :=
      Session.new (.memory (.new .empty (some 2))) .literal
    let rs : List Request :=
      [.statement epoch "CREATE DATABASE d",
        .statement epoch "CREATE TABLE t (a INT)",
        .insertRow "t" [("a", "5")],
        .statement epoch "ROLLBACK",
        .statement epoch "SELECT * FROM t"]
    let s' := s.reached rs 4
    let t' := (s.inMode .scoped).reached rs 4
    s.backend.Works ∧ (∀ r ∈ rs, r.IsPlain) ∧
      (∀ n < rs.length, ∀ r ∈ rs[n]?,
        (s.reached rs n).Announces r) ∧
      t'.backend = s'.backend ∧ s'.backend.stack.length = 1 ∧
      s'.notices.length = 4 ∧ t'.notices = s'.notices := by
  intro s rs s' t'
  have hWorks : s.backend.Works := trivial
  have hPlain : ∀ r ∈ rs, r.IsPlain := by decide +kernel
  have hAnnounces :
      ∀ n < rs.length, ∀ r ∈ rs[n]?,
        (s.reached rs n).Announces r := by
    decide +kernel
  have hStack : s'.backend.stack.length = 1 := by
    decide +kernel
  have hNotices : s'.notices.length = 4 := by
    decide +kernel
  rcases modes_agree rfl rfl hWorks hPlain hAnnounces 4 with
    ⟨hBackend, _, _, hSame, _⟩
  exact
    ⟨hWorks, hPlain, hAnnounces, hBackend, hStack, hNotices,
      hSame⟩

end Session

end Rowstore
