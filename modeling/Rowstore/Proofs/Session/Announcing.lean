import Rowstore.Proofs.Session.Handling
import Rowstore.Proofs.Storage.Guarding
import Rowstore.Proofs.Workspace.Reports

/-
  What listeners hear of a request, over a backend in memory
  any calls of which may be out of order.

  Every successful request that leaves another collection
  behind is heard of, but for one case: a rollback after which
  no database is selected.  What is heard is true: the notice
  has a database as it is stored, or as it was stored before
  it was dropped.

  Main declarations:
    * `Session.heard` and `Session.hears`
    * `Session.changes_are_heard_iff`
    * `Session.truthful_of_reachable`
-/

------------------------------------------------------------
-- What Is Heard
------------------------------------------------------------

namespace Rowstore

namespace Session

/- The notices that are sent while a request is handled. -/
def heard
    (s : Session (Outage Memory))
    (r : Request) : List Notice :=
  (s.after r).notices.drop s.notices.length

/-
  What is heard of a task, by its answer and by the collection
  that is stored afterwards.
-/
inductive Hears
    (s : Session (Outage Memory)) :
    Task → Except Error Answer → Collection →
      List Notice → Prop where
| nothing
    (task : Task)
    (answer : Except Error Answer) :
    Hears s task answer s.stored []
| failed
    (task : Task)
    (e : Error)
    (c : Collection) :
    Hears s task (.error e) c []
| changed
    {work : Work (Answer × Option Notice)}
    {a : Answer}
    {n : Notice}
    {w : Workspace}
    (hWork :
      work.run.run s.workspace = (.ok (a, some n), w)) :
    Hears s (.change work) (.ok a) w.collection [n]
| restored
    {c : Collection}
    {d : Database}
    (hActive : s.selection.bind c.get? = some d)
    (a : Answer) :
    Hears s (.control .rollback) (.ok a) c
      [{ database := d
         change := .restored }]
| unheard
    {c : Collection}
    (hPop : .pop ∉ s.failing)
    (hSave : .save ∉ s.failing)
    (hStack : s.stack.head? = some c)
    (hActive : s.selection.bind c.get? = none)
    (a : Answer) :
    Hears s (.control .rollback) (.ok a) c []

variable {s s' : Session (Outage Memory)}

theorem started_stored (s : Session (Outage Memory)) :
    s.started.stored = s.stored := by
  by_cases hMode : s.mode = .literal
  · simp [started, hMode]
  · simp [started, hMode]

theorem started_notices (s : Session (Outage Memory)) :
    s.started.notices = s.notices := by
  by_cases hMode : s.mode = .literal
  · simp [started, hMode]
  · simp [started, hMode]

theorem recorded_notices (s : Session (Outage Memory)) :
    s.recorded.notices = s.notices := by
  by_cases hTakes : s.mode = .literal ∨ s.depth = 0
  · simp [recorded, hTakes]
  · simp [recorded, hTakes]

theorem hears_nothing
    (s : Session (Outage Memory))
    (hStored : s'.stored = s.stored)
    (hNotices : s'.notices = s.notices)
    (task : Task)
    (answer : Except Error Answer) :
    ∃ sent,
      s'.notices = s.notices ++ sent ∧
        Hears s task answer s'.stored sent := by
  rw [hStored, hNotices]
  exact ⟨[], (List.append_nil _).symm, .nothing task answer⟩

/- A change sends the notice of its work once it is done. -/
theorem hears_of_change
    {work : Work (Answer × Option Notice)}
    {answer : Except Error Answer}
    (hEnds : ChangeEnds s work answer s') :
    ∃ sent,
      s'.notices = s.notices ++ sent ∧
        Hears s (.change work) answer s'.stored sent := by
  cases hEnds with
  | unread => exact hears_nothing s rfl rfl _ _
  | unrecorded => exact hears_nothing s rfl rfl _ _
  | refused =>
      exact ⟨[], by simp [started_notices], .failed _ _ _⟩
  | silent hStarts hWork =>
      exact
        hears_nothing s (started_stored s)
          (started_notices s) _ _
  | unsaved =>
      exact ⟨[], by simp [started_notices], .failed _ _ _⟩
  | halfDone =>
      exact ⟨[], by simp [settled], .failed _ _ _⟩
  | done hStarts hWork hSave hPush =>
      exact
        ⟨[_], by simp [announced, settled, recorded_notices],
          .changed hWork⟩

/- Of the transaction statements only a rollback is heard of. -/
theorem hears_of_control
    {c : Control}
    {answer : Except Error QueryResult}
    (hEnds : ControlEnds s c answer s') :
    ∃ sent,
      s'.notices = s.notices ++ sent ∧
        Hears s (.control c) (answer.map .result)
          s'.stored sent := by
  cases hEnds with
  | restored hPop hStack hSave =>
      rename_i snapshot rest
      rw [stored_returned]
      cases hActive : s.selection.bind snapshot.get? with
      | none =>
          refine ⟨[], ?_, ?_⟩
          · simp [returned, hActive]
          · exact
              .unheard hPop hSave (by simp [hStack]) hActive _
      | some d =>
          refine ⟨[_], ?_, .restored hActive _⟩
          simp [returned, hActive, announced]
  | unbegun => exact hears_nothing s rfl rfl _ _
  | begun => exact hears_nothing s rfl rfl _ _
  | uncleared => exact hears_nothing s rfl rfl _ _
  | cleared => exact hears_nothing s rfl rfl _ _
  | idle => exact hears_nothing s rfl rfl _ _
  | unclosed => exact hears_nothing s rfl rfl _ _
  | closed => exact hears_nothing s rfl rfl _ _
  | stuck => exact hears_nothing s rfl rfl _ _
  | nothing => exact hears_nothing s rfl rfl _ _
  | lost => exact hears_nothing s rfl rfl _ _

theorem hears_of_ends
    {task : Task}
    {answer : Except Error Answer}
    (hEnds : Ends s task answer s') :
    ∃ sent,
      s'.notices = s.notices ++ sent ∧
        Hears s task answer s'.stored sent := by
  cases hEnds with
  | reject e => exact hears_nothing s rfl rfl _ _
  | control hControl => exact hears_of_control hControl
  | read hRead =>
      rcases eq_selected_of_read hRead with ⟨id, rfl⟩
      exact hears_nothing s rfl rfl _ _
  | change hChange => exact hears_of_change hChange
  | choose hChoose =>
      rcases eq_selected_of_choose hChoose with ⟨id, rfl⟩
      exact hears_nothing s rfl rfl _ _

/- A request takes back no notice, and what it sends is heard. -/
theorem hears
    (s : Session (Outage Memory))
    (r : Request) :
    (s.after r).notices = s.notices ++ s.heard r ∧
      Hears s r.task (s.handle r).1 (s.after r).stored
        (s.heard r) := by
  rcases hears_of_ends (handle_ends s r) with
    ⟨sent, hNotices, hHears⟩
  have hHeard : s.heard r = sent := by
    unfold heard after
    rw [hNotices, List.drop_left]
  rw [hHeard]
  exact ⟨hNotices, hHears⟩

------------------------------------------------------------
-- Changes Without A Notice
------------------------------------------------------------

/-
  A rollback goes back to another collection, in which the
  selected database is not: nothing is selected afterwards.
-/
structure RestoresUnheard
    (s : Session (Outage Memory))
    (r : Request) : Prop where
  rollback : r.control? = some .rollback
  pops : .pop ∉ s.failing
  saves : .save ∉ s.failing
  changes :
    ∃ c ∈ s.stack.head?,
      c ≠ s.stored ∧ s.selection.bind c.get? = none

/- The rollback succeeds, and sends no notice. -/
theorem notices_of_restoresUnheard
    {r : Request}
    (hUnheard : RestoresUnheard s r) :
    (∃ answer, (s.handle r).1 = .ok answer) ∧
      (s.after r).stored ≠ s.stored ∧
      (s.after r).notices = s.notices := by
  rcases hUnheard.changes with ⟨c, hTop, hOther, hActive⟩
  rcases control_ends_of_control? s hUnheard.rollback with
    ⟨answer, hAnswer, hControl⟩
  rw [hAnswer]
  generalize s.after r = s' at hControl ⊢
  cases hControl with
  | stuck hPop => exact absurd hPop hUnheard.pops
  | nothing hPop hStack =>
      rw [hStack] at hTop
      cases hTop
  | lost hPop hStack hSave =>
      exact absurd hSave hUnheard.saves
  | restored hPop hStack hSave =>
      rw [hStack] at hTop
      cases hTop
      refine ⟨⟨_, rfl⟩, ?_, ?_⟩
      · rw [stored_returned]
        exact hOther
      · simp [returned, hActive]

/-
  Of a successful request that leaves another collection
  behind every listener hears, exactly unless it is a rollback
  after which nothing is selected.
-/
theorem changes_are_heard_iff
    (s : Session (Outage Memory))
    (r : Request) :
    (∀ answer, (s.handle r).1 = .ok answer →
      (s.after r).stored ≠ s.stored → s.heard r ≠ []) ↔
      ¬RestoresUnheard s r := by
  rcases hears s r with ⟨hNotices, hHears⟩
  constructor
  · intro hHeard hUnheard
    rcases notices_of_restoresUnheard hUnheard with
      ⟨⟨answer, hAnswer⟩, hOther, hSame⟩
    rw [hSame, List.self_eq_append_right] at hNotices
    exact hHeard answer hAnswer hOther hNotices
  · intro hUnheard answer hAnswer hOther hSilent
    apply hUnheard
    rw [hAnswer, hSilent] at hHears
    generalize hTask : r.task = task at hHears
    generalize (s.after r).stored = c at hHears hOther
    cases hHears with
    | nothing => exact absurd rfl hOther
    | unheard hPop hSave hStack hActive =>
        exact
          { rollback := (control?_eq_some_iff r _).mpr hTask
            pops := hPop
            saves := hSave
            changes := ⟨c, hStack, hOther, hActive⟩ }

/-
  A database is created and dropped.  The rollback that brings
  it back is not heard of, for nothing is selected.
-/
theorem dropped_database_returns_unheard :
    let s :=
      (inMemory .literal none []).afterAll
        [.statement epoch "CREATE DATABASE d",
          .statement epoch "DROP DATABASE d"]
    let r := Request.statement epoch "ROLLBACK"
    (s.handle r).1 =
        .ok (.result (.message
          "Rolled back to previous snapshot")) ∧
      s.stored.databases = [] ∧
      (s.after r).stored.databases ≠ [] ∧
      s.heard r = [] := by
  decide +kernel

end Session

end Rowstore

------------------------------------------------------------
-- Distinct Identifiers
------------------------------------------------------------

namespace Rowstore

/- No two databases have the same identifier. -/
def Collection.Distinct (c : Collection) : Prop :=
  c.ids.Nodup

namespace Session

/- The request creates no database with an identifier that another one has. -/
def Request.IsFresh
    (r : Request)
    (c : Collection) : Prop :=
  ∀ id ∈ r.newIds, id ∉ c.ids

instance
    (r : Request)
    (c : Collection) : Decidable (r.IsFresh c) :=
  inferInstanceAs (Decidable (∀ id ∈ r.newIds, id ∉ c.ids))

/-
  A session, in either mode, over a memory that is empty or
  has otherwise distinct identifiers; a session after a
  request that is given a new identifier; a session other
  calls of which go out of order; and a new session, in
  either mode, over the memory of another one.
-/
inductive FreshlyReachable :
    Session (Outage Memory) → Prop where
| opened
    {m : Memory}
    (hDistinct : Memory.Safe Collection.Distinct m)
    (mode : Mode)
    (failing : List CallName) :
    FreshlyReachable
      (Session.new
        { backend := m
          failing := failing }
        mode)
| served
    {s : Session (Outage Memory)}
    (hReachable : s.FreshlyReachable)
    {r : Request}
    (hFresh : r.IsFresh s.stored) :
    FreshlyReachable (s.after r)
| disturbed
    {s : Session (Outage Memory)}
    (hReachable : s.FreshlyReachable)
    (failing : List CallName) :
    FreshlyReachable (s.withFailing failing)
| reopened
    {s : Session (Outage Memory)}
    (hReachable : s.FreshlyReachable)
    (mode : Mode) :
    FreshlyReachable (Session.new s.backend mode)

theorem distinct_new (limit : Option Nat) :
    Memory.Safe Collection.Distinct
      (Memory.new .empty limit) where
  stored := List.nodup_nil
  stack := List.forall_mem_nil _

variable {s s' : Session (Outage Memory)}
variable {P : Collection → Prop}

/- The stored collection and all snapshots have a property. -/
def AllHave
    (P : Collection → Prop)
    (s : Session (Outage Memory)) : Prop :=
  Memory.Safe P s.backend.backend

theorem allHave_withSnapshot
    (hAll : s.AllHave P) :
    s.withSnapshot.AllHave P where
  stored := hAll.stored
  stack := by
    intro c hMem
    rcases mem_of_mem_pushWithin hMem with rfl | hMem
    · exact hAll.stored
    · exact hAll.stack c hMem

theorem allHave_started
    (hAll : s.AllHave P) :
    s.started.AllHave P := by
  unfold started
  split
  · exact allHave_withSnapshot hAll
  · exact hAll

theorem allHave_recorded
    (hAll : s.AllHave P) :
    s.recorded.AllHave P := by
  unfold recorded
  split
  · exact allHave_withSnapshot hAll
  · exact hAll

theorem allHave_tail
    (hAll : s.AllHave P)
    {rest : List Collection}
    (hRest : ∀ c ∈ rest, c ∈ s.stack) :
    (s.withStack rest).AllHave P where
  stored := hAll.stored
  stack := fun c hMem => hAll.stack c (hRest c hMem)

theorem allHave_returned
    (hAll : s.AllHave P)
    {c : Collection}
    (hGiven : P c) :
    (s.returned c).AllHave P where
  stored := by
    change P (s.returned c).stored
    rw [stored_returned]
    exact hGiven
  stack := by
    change ∀ d ∈ (s.returned c).stack, P d
    rw [stack_returned]
    exact hAll.stack

/- A change puts nothing aside but the stored collection, and stores what its work makes. -/
theorem allHave_of_change
    {work : Work (Answer × Option Notice)}
    {answer : Except Error Answer}
    (hEnds : ChangeEnds s work answer s')
    (hAll : s.AllHave P)
    (hMade :
      ∀ a n w,
        work.run.run s.workspace = (.ok (a, n), w) →
          P w.collection) :
    s'.AllHave P := by
  cases hEnds with
  | unread => exact hAll
  | unrecorded => exact hAll
  | refused => exact allHave_started hAll
  | silent => exact allHave_started hAll
  | unsaved => exact allHave_started hAll
  | halfDone hStarts hWork hSave hNeeds hPush =>
      exact ⟨hMade _ _ _ hWork, hAll.stack⟩
  | done hStarts hWork hSave hPush =>
      exact
        ⟨hMade _ _ _ hWork, (allHave_recorded hAll).stack⟩

theorem allHave_of_control
    {c : Control}
    {answer : Except Error QueryResult}
    (hEnds : ControlEnds s c answer s')
    (hAll : s.AllHave P) :
    s'.AllHave P := by
  cases hEnds with
  | begun => exact allHave_withSnapshot hAll
  | cleared =>
      exact allHave_tail hAll fun _ hMem => by cases hMem
  | closed =>
      exact allHave_tail hAll fun _ => List.mem_of_mem_tail
  | lost hPop hStack hSave =>
      apply allHave_tail hAll
      intro c hMem
      rw [hStack]
      exact List.mem_cons_of_mem _ hMem
  | restored hPop hStack hSave =>
      rename_i snapshot rest
      have hHeld : ∀ c ∈ snapshot :: rest, P c := by
        rw [← hStack]
        exact hAll.stack
      rw [List.forall_mem_cons] at hHeld
      exact
        allHave_returned (s := { s.withStack rest with
          depth := s.depth - 1 }) ⟨hAll.stored, hHeld.2⟩
          hHeld.1
  | unbegun => exact hAll
  | uncleared => exact hAll
  | idle => exact hAll
  | unclosed => exact hAll
  | stuck => exact hAll
  | nothing => exact hAll

theorem distinct_after
    (hAll : s.AllHave Collection.Distinct)
    {r : Request}
    (hFresh : r.IsFresh s.stored) :
    (s.after r).AllHave Collection.Distinct := by
  have hEnds := handle_ends s r
  unfold after
  generalize (s.handle r).1 = answer at hEnds
  generalize (s.handle r).2 = s' at hEnds ⊢
  generalize hTask : r.task = task at hEnds
  cases hEnds with
  | reject e => exact hAll
  | control hControl =>
      exact allHave_of_control hControl hAll
  | read hRead =>
      rcases eq_selected_of_read hRead with ⟨id, rfl⟩
      exact hAll
  | change hChange =>
      apply allHave_of_change hChange hAll
      intro a n w hWork
      have hReported :=
        (reports_of_task hTask s.workspace).ok rfl hWork
      exact hReported.nodup_ids hFresh hAll.stored
  | choose hChoose =>
      rcases eq_selected_of_choose hChoose with ⟨id, rfl⟩
      exact hAll

theorem distinct_of_reachable
    (hReachable : s.FreshlyReachable) :
    s.AllHave Collection.Distinct := by
  induction hReachable with
  | opened hDistinct mode failing => exact hDistinct
  | served _ hFresh ih => exact distinct_after ih hFresh
  | disturbed _ failing ih => exact ih
  | reopened _ mode ih => exact ih

------------------------------------------------------------
-- Truth Of Notices
------------------------------------------------------------

/- Only changes and rollbacks have something to announce. -/
def Task.announces : Task → Bool
| .change _ => true
| .control .rollback => true
| _ => false

/-
  At most one notice is sent, and none by a request that
  fails, that only reads, or whose work has none.  The notice
  has a database as it is stored afterwards, or, if it was
  dropped, as it was stored before.
-/
structure Truthful
    (s : Session (Outage Memory))
    (r : Request) : Prop where
  single : (s.heard r).length ≤ 1
  failed :
    ∀ e, (s.handle r).1 = .error e → s.heard r = []
  quiet : r.task.announces = false → s.heard r = []
  silent :
    ∀ work a w,
      r.task = .change work →
        work.run.run s.workspace = (.ok (a, none), w) →
        s.heard r = []
  stored :
    ∀ n ∈ s.heard r, n.change ≠ .databaseDropped →
      (s.after r).stored.get? n.database.id =
        some n.database
  dropped :
    ∀ n ∈ s.heard r, n.change = .databaseDropped →
      s.stored.get? n.database.id = some n.database ∧
        (s.after r).stored.get? n.database.id = none

/- Where nothing is said nothing is wrong. -/
theorem truthful_of_nothing
    {r : Request}
    (hNothing : s.heard r = []) :
    Truthful s r := by
  constructor
  all_goals simp [hNothing]

/- A single notice of a request that succeeds has to have the right database. -/
theorem truthful_of_single
    {r : Request}
    {a : Answer}
    {n : Notice}
    (hAnswer : (s.handle r).1 = .ok a)
    (hHeard : s.heard r = [n])
    (hAnnounces : r.task.announces = true)
    (hSpeaks :
      ∀ work a w,
        r.task = .change work →
          work.run.run s.workspace ≠ (.ok (a, none), w))
    (hStored :
      n.change ≠ .databaseDropped →
        (s.after r).stored.get? n.database.id =
          some n.database)
    (hDropped :
      n.change = .databaseDropped →
        s.stored.get? n.database.id = some n.database ∧
          (s.after r).stored.get? n.database.id = none) :
    Truthful s r where
  single := by simp [hHeard]
  failed := by
    intro e hError
    rw [hAnswer] at hError
    cases hError
  quiet := by
    intro hQuiet
    rw [hAnnounces] at hQuiet
    cases hQuiet
  silent := by
    intro work a w hTask hWork
    exact absurd hWork (hSpeaks work a w hTask)
  stored := by
    rw [hHeard, List.forall_mem_singleton]
    exact hStored
  dropped := by
    rw [hHeard, List.forall_mem_singleton]
    exact hDropped

theorem truthful_of_changed
    (hDistinct : s.stored.Distinct)
    {r : Request}
    (hFresh : r.IsFresh s.stored)
    {work : Work (Answer × Option Notice)}
    (hTask : r.task = .change work)
    {a : Answer}
    {n : Notice}
    {w : Workspace}
    (hWork :
      work.run.run s.workspace = (.ok (a, some n), w))
    (hAnswer : (s.handle r).1 = .ok a)
    (hStored : (s.after r).stored = w.collection)
    (hHeard : s.heard r = [n]) :
    Truthful s r := by
  have hReported :=
    (reports_of_task hTask s.workspace).ok rfl hWork
  apply truthful_of_single hAnswer hHeard
  · rw [hTask]
    rfl
  · intro work' a' w' hTask' hWork'
    rw [hTask] at hTask'
    cases hTask'
    rw [hWork] at hWork'
    cases hWork'
  · rw [hStored]
    exact hReported.get?_of_not_dropped hFresh
  · rw [hStored]
    exact hReported.get?_of_dropped hDistinct

theorem truthful_of_restored
    {r : Request}
    (hTask : r.task = .control .rollback)
    {d : Database}
    {a : Answer}
    (hActive :
      s.selection.bind (s.after r).stored.get? = some d)
    (hAnswer : (s.handle r).1 = .ok a)
    (hHeard :
      s.heard r =
        [{ database := d
           change := .restored }]) :
    Truthful s r := by
  apply truthful_of_single hAnswer hHeard
  · rw [hTask]
    rfl
  · intro work a' w hTask'
    rw [hTask] at hTask'
    cases hTask'
  · intro _
    rcases Option.bind_eq_some_iff.mp hActive with
      ⟨id, _, hFind⟩
    rw [← Collection.id_of_get? hFind] at hFind
    exact hFind
  · intro hDropped
    cases hDropped

/- Whatever fails, in either mode, the notices of a reachable session are true. -/
theorem truthful_of_reachable
    (hReachable : s.FreshlyReachable)
    {r : Request}
    (hFresh : r.IsFresh s.stored) :
    Truthful s r := by
  have hDistinct : s.stored.Distinct :=
    (distinct_of_reachable hReachable).stored
  rcases hears s r with ⟨_, hHears⟩
  generalize hTask : r.task = task at hHears
  generalize hAnswer : (s.handle r).1 = answer at hHears
  generalize hStored : (s.after r).stored = c at hHears
  generalize hHeard : s.heard r = sent at hHears
  cases hHears with
  | nothing => exact truthful_of_nothing hHeard
  | failed => exact truthful_of_nothing hHeard
  | unheard => exact truthful_of_nothing hHeard
  | changed hWork =>
      exact
        truthful_of_changed hDistinct hFresh hTask hWork
          hAnswer hStored hHeard
  | restored hActive a =>
      rw [← hStored] at hActive
      exact
        truthful_of_restored hTask hActive hAnswer hHeard

/- Out of two databases one is dropped, and its notice has it as it was. -/
theorem dropped_database_is_heard :
    let stamp : Stamp := { epoch with uuid := ⟨1⟩ }
    let s :=
      (inMemory .scoped none []).afterAll
        [.statement epoch "CREATE DATABASE d",
          .statement stamp "CREATE DATABASE e"]
    let r := Request.statement epoch "DROP DATABASE d"
    s.FreshlyReachable ∧ r.IsFresh s.stored ∧
      (s.heard r).map Notice.change = [.databaseDropped] ∧
      Truthful s r := by
  intro stamp s r
  have hStart :
      (inMemory .scoped none []).FreshlyReachable :=
    .opened (distinct_new none) .scoped []
  have hFirst :
      FreshlyReachable
        ((inMemory .scoped none []).after
          (.statement epoch "CREATE DATABASE d")) := by
    apply FreshlyReachable.served hStart
    decide +kernel
  have hReachable : s.FreshlyReachable := by
    apply FreshlyReachable.served hFirst
    decide +kernel
  have hFresh : r.IsFresh s.stored := by decide +kernel
  have hHeard :
      (s.heard r).map Notice.change =
        [.databaseDropped] := by
    decide +kernel
  exact
    ⟨hReachable, hFresh, hHeard,
      truthful_of_reachable hReachable hFresh⟩

end Session

end Rowstore
