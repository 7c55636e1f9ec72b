import Mathlib.Data.List.Induction
import Rowstore.Proofs.Session.Nesting
import Rowstore.Proofs.Session.Undo

/-
  The transaction depth against the open begins.

  Beside a run stands the list of the requests that put the
  snapshots on the stack.  The depth is never above the
  number of begins among them.  It falls below when a rollback
  takes back the snapshot of a change while the snapshot of a
  begin is further down, which only literal mode can do: in
  scoped mode the snapshots of the open begins are on top.

  Main declarations:
    * `Session.sources` and `Session.openBegins`
    * `Session.Nests` and `Session.nests_after`
    * `Session.Uncounts`
    * `Session.depth_counts_iff`
-/

------------------------------------------------------------
-- The Requests Behind The Snapshots
------------------------------------------------------------

namespace Rowstore

namespace Session

/- A begin asks to open a transaction. -/
def Request.isBegin (r : Request) : Bool :=
  r.control? == some .begin

/-
  The requests that put the snapshots on the stack, the one
  of the newest snapshot first.  A request after which the
  stack is longer has put a snapshot on it, and one after
  which it is shorter has taken the newest ones off.
-/
def sourcesAfter
    (sources : List Request)
    (s : Session (Outage Memory))
    (r : Request) : List Request :=
  if s.stack.length < (s.after r).stack.length then
    r :: sources
  else
    sources.drop (s.stack.length - (s.after r).stack.length)

/- The same after requests, one after the other. -/
def sourcesFrom
    (sources : List Request)
    (s : Session (Outage Memory)) :
    List Request → List Request
| [] => sources
| r :: rs => sourcesFrom (sourcesAfter sources s r) (s.after r) rs

/- The sources of the snapshots after a run that starts without snapshots. -/
def sources
    (s : Session (Outage Memory))
    (rs : List Request) : List Request :=
  sourcesFrom [] s rs

/- How many of the requests are begins. -/
def openBegins (sources : List Request) : Nat :=
  sources.countP Request.isBegin

theorem sourcesFrom_concat
    (sources : List Request)
    (s : Session (Outage Memory))
    (rs : List Request)
    (r : Request) :
    sourcesFrom sources s (rs ++ [r]) =
      sourcesAfter (sourcesFrom sources s rs)
        (s.afterAll rs) r := by
  induction rs generalizing sources s with
  | nil => rfl
  | cons first rs ih =>
      exact ih (sourcesAfter sources s first) (s.after first)

theorem afterAll_concat
    (s : Session (Outage Memory))
    (rs : List Request)
    (r : Request) :
    s.afterAll (rs ++ [r]) = (s.afterAll rs).after r :=
  afterAll_append s rs [r]

theorem openBegins_cons
    (r : Request)
    (sources : List Request) :
    openBegins (r :: sources) =
      openBegins sources + if r.isBegin then 1 else 0 :=
  List.countP_cons

------------------------------------------------------------
-- What A Request Does To The Stack And The Depth
------------------------------------------------------------

/- The stack and the depth after a request, when every call works. -/
inductive Nests
    (s : Session (Outage Memory))
    (r : Request)
    (s' : Session (Outage Memory)) : Prop where
| kept
    (hOther : r.control? ≠ some .rollback)
    (hStack : s'.stack = s.stack)
    (hDepth : s'.depth = s.depth)
| opened
    (hBegin : r.isBegin = true)
    (hStack : s'.stack = s.stored :: s.stack)
    (hDepth : s'.depth = s.depth + 1)
| recorded
    (hChange : r.control? = none)
    (hOutside : s.mode = .scoped → s.depth = 0)
    (hStack : s'.stack = s.stored :: s.stack)
    (hDepth : s'.depth = s.depth)
| cleared
    (hOther : r.control? ≠ some .rollback)
    (hStack : s'.stack = [])
    (hDepth : s'.depth = 0)
| closed
    (hOther : r.control? ≠ some .rollback)
    (hMode : s.mode = .scoped)
    (hInside : s.depth ≠ 0)
    (hStack : s'.stack = s.stack.tail)
    (hDepth : s'.depth = s.depth - 1)
| emptied
    (hEmpty : s.stack = [])
    (hStack : s'.stack = [])
    (hDepth : s'.depth = 0)
| returned
    (hRollback : r.control? = some .rollback)
    (hNonempty : s.stack ≠ [])
    (hStack : s'.stack = s.stack.tail)
    (hDepth : s'.depth = s.depth - 1)

variable {mode : Mode} {s s' : Session (Outage Memory)}

/- A change opens and closes no transaction. -/
theorem depth_of_change
    {α : Type}
    {work : Work (α × Option Notice)}
    {answer : Except Error α}
    (hEnds : ChangeEnds s work answer s') :
    s'.depth = s.depth := by
  have hStarted : s.started.depth = s.depth := by
    unfold started
    split
    · rfl
    · rfl
  have hRecorded : s.recorded.depth = s.depth := by
    unfold recorded
    split
    · rfl
    · rfl
  cases hEnds with
  | unread => rfl
  | unrecorded => rfl
  | refused => exact hStarted
  | silent => exact hStarted
  | unsaved => exact hStarted
  | halfDone => rfl
  | done => exact hRecorded

/- A change of scoped mode takes a snapshot if it is done outside of transactions. -/
theorem stack_of_change_scoped
    (hSteady : Steady .scoped s)
    (hOutside : s.depth = 0)
    {α : Type}
    {work : Work (α × Option Notice)}
    {answer : Except Error α}
    (hEnds : ChangeEnds s work answer s') :
    s'.stack = s.stack ∨ s'.stack = s.stored :: s.stack := by
  have hStarted : s.started = s := by
    simp [started, hSteady.mode]
  cases hEnds with
  | unread => exact .inl rfl
  | unrecorded => exact .inl rfl
  | refused =>
      rw [hStarted]
      exact .inl rfl
  | silent =>
      rw [hStarted]
      exact .inl rfl
  | unsaved =>
      rw [hStarted]
      exact .inl rfl
  | halfDone => exact .inl rfl
  | done =>
      right
      simp [recorded, hOutside, announced, settled,
        pushWithin, hSteady.unbounded]

theorem nests_of_change
    (hSteady : Steady mode s)
    {r : Request}
    (hChange : r.control? = none)
    {work : Work (Answer × Option Notice)}
    {answer : Except Error Answer}
    (hEnds : ChangeEnds s work answer s') :
    Nests s r s' := by
  have hDepth := depth_of_change hEnds
  have hOther : r.control? ≠ some .rollback := by
    rw [hChange]
    exact nofun
  cases mode with
  | literal =>
      have hOutside : s.mode = .scoped → s.depth = 0 := by
        intro hScoped
        rw [hSteady.mode] at hScoped
        cases hScoped
      exact .recorded hChange hOutside
        (stack_of_change hSteady hEnds) hDepth
  | «scoped» =>
      by_cases hOutside : s.depth = 0
      · rcases stack_of_change_scoped hSteady hOutside hEnds
          with hStack | hStack
        · exact .kept hOther hStack hDepth
        · exact .recorded hChange (fun _ => hOutside) hStack
            hDepth
      · have hSame :=
          sameNesting_of_change hSteady.mode hOutside hEnds
        exact .kept hOther hSame.stack hDepth

theorem nests_of_control
    (hSteady : Steady mode s)
    {r : Request}
    {c : Control}
    (hAsked : r.control? = some c)
    {answer : Except Error QueryResult}
    (hEnds : ControlEnds s c answer s') :
    Nests s r s' := by
  cases hEnds with
  | unbegun hFail =>
      rcases hFail with hLoad | hPush
      · exact absurd hLoad (hSteady.works .load)
      · exact absurd hPush (hSteady.works .push)
  | begun hLoad hPush =>
      refine .opened ?_ ?_ rfl
      · simp [Request.isBegin, hAsked]
      · simp [pushWithin, hSteady.unbounded]
  | uncleared hMode hClear =>
      exact absurd hClear (hSteady.works .clear)
  | cleared hMode hClear =>
      exact .cleared (by simp [hAsked]) rfl rfl
  | idle hMode hDepth =>
      exact .kept (by simp [hAsked]) rfl rfl
  | unclosed hMode hDepth hPop =>
      exact absurd hPop (hSteady.works .pop)
  | closed hMode hDepth hPop =>
      exact .closed (by simp [hAsked]) hMode hDepth rfl rfl
  | stuck hPop => exact absurd hPop (hSteady.works .pop)
  | nothing hPop hStack =>
      exact .emptied hStack hStack rfl
  | lost hPop hStack hSave =>
      exact absurd hSave (hSteady.works .save)
  | @restored c rest hPop hStack hSave =>
      refine .returned hAsked ?_ ?_ ?_
      · rw [hStack]
        exact List.cons_ne_nil c rest
      · rw [stack_returned, hStack]
        rfl
      · rw [depth_returned]

theorem nests_after
    (hSteady : Steady mode s)
    (r : Request) :
    Nests s r (s.after r) := by
  have hEnds := handle_ends s r
  unfold after
  generalize hTask : r.task = task at hEnds
  generalize (s.handle r).1 = answer at hEnds
  generalize (s.handle r).2 = s' at hEnds ⊢
  have hPlain
      (hNone : ∀ c, task ≠ .control c) :
      r.control? = none := by
    rw [Option.eq_none_iff_forall_ne_some]
    intro c hAsked
    rw [control?_eq_some_iff, hTask] at hAsked
    exact hNone c hAsked
  have hOther
      (hNone : ∀ c, task ≠ .control c) :
      r.control? ≠ some .rollback := by
    rw [hPlain hNone]
    exact nofun
  cases hEnds with
  | reject e => exact .kept (hOther nofun) rfl rfl
  | control hControl =>
      rw [← control?_eq_some_iff] at hTask
      exact nests_of_control hSteady hTask hControl
  | read hRead =>
      rcases eq_selected_of_read hRead with ⟨id, rfl⟩
      exact .kept (hOther nofun) rfl rfl
  | change hChange =>
      exact nests_of_change hSteady (hPlain nofun) hChange
  | choose hChoose =>
      rcases eq_selected_of_choose hChoose with ⟨id, rfl⟩
      exact .kept (hOther nofun) rfl rfl

------------------------------------------------------------
-- One Request
------------------------------------------------------------

/- As many begins as the depth says, on top of no more begins. -/
def Layered
    (depth : Nat)
    (sources : List Request) : Prop :=
  ∃ begins changes,
    sources = begins ++ changes ∧ begins.length = depth ∧
      (∀ r ∈ begins, r.isBegin = true) ∧
      ∀ r ∈ changes, r.isBegin = false

/-
  Each snapshot has a source, the depth is at most the number
  of begins, and in scoped mode the begins are on top.
-/
structure Accounts
    (s : Session (Outage Memory))
    (sources : List Request) : Prop where
  complete : sources.length = s.stack.length
  covered : s.depth ≤ openBegins sources
  layered : s.mode = .scoped → Layered s.depth sources

/-
  The rollback takes back the snapshot of a change, and the
  snapshot of a begin is further down.
-/
def Uncounts
    (sources : List Request)
    (r : Request) : Prop :=
  r.control? = some .rollback ∧
    ∃ top rest,
      sources = top :: rest ∧ top.isBegin = false ∧
        0 < openBegins rest

variable {sources : List Request}

theorem sourcesAfter_of_kept
    (r : Request)
    (hStack : (s.after r).stack = s.stack) :
    sourcesAfter sources s r = sources := by
  simp [sourcesAfter, hStack]

theorem sourcesAfter_of_pushed
    {c : Collection}
    {r : Request}
    (hStack : (s.after r).stack = c :: s.stack) :
    sourcesAfter sources s r = r :: sources := by
  simp [sourcesAfter, hStack]

theorem sourcesAfter_of_popped
    (hComplete : sources.length = s.stack.length)
    {r : Request}
    (hStack : (s.after r).stack = s.stack.tail) :
    sourcesAfter sources s r = sources.tail := by
  cases hSnapshots : s.stack with
  | nil =>
      rw [hSnapshots] at hComplete
      have hNone := List.eq_nil_of_length_eq_zero hComplete
      simp [sourcesAfter, hStack, hSnapshots, hNone]
  | cons c rest =>
      have hShorter :
          ¬s.stack.length < (s.after r).stack.length := by
        rw [hStack, List.length_tail]
        omega
      have hOne :
          s.stack.length - (s.after r).stack.length = 1 := by
        rw [hStack, hSnapshots]
        simp
      rw [sourcesAfter, if_neg hShorter, hOne,
        List.drop_one]

theorem sourcesAfter_of_cleared
    (hComplete : sources.length = s.stack.length)
    {r : Request}
    (hStack : (s.after r).stack = []) :
    sourcesAfter sources s r = [] := by
  simp [sourcesAfter, hStack, ← hComplete]

theorem openBegins_le_tail (sources : List Request) :
    openBegins sources ≤ openBegins sources.tail + 1 := by
  cases sources with
  | nil => exact Nat.zero_le _
  | cons r rest =>
      rw [openBegins_cons, List.tail_cons]
      split
      · exact Nat.le_refl _
      · omega

namespace Layered

variable {depth : Nat}

theorem openBegins_eq (hLayered : Layered depth sources) :
    openBegins sources = depth := by
  rcases hLayered with
    ⟨begins, changes, rfl, hLength, hBegins, hChanges⟩
  have hTop : begins.countP Request.isBegin = begins.length :=
    List.countP_eq_length.mpr hBegins
  have hBelow : changes.countP Request.isBegin = 0 := by
    rw [List.countP_eq_zero]
    intro r hMem
    rw [hChanges r hMem]
    exact Bool.false_ne_true
  rw [openBegins, List.countP_append, hTop, hBelow, hLength,
    Nat.add_zero]

theorem opened
    (hLayered : Layered depth sources)
    {r : Request}
    (hBegin : r.isBegin = true) :
    Layered (depth + 1) (r :: sources) := by
  rcases hLayered with
    ⟨begins, changes, rfl, hLength, hBegins, hChanges⟩
  refine ⟨r :: begins, changes, rfl, ?_, ?_, hChanges⟩
  · rw [List.length_cons, hLength]
  · exact List.forall_mem_cons.mpr ⟨hBegin, hBegins⟩

theorem recorded
    (hLayered : Layered 0 sources)
    {r : Request}
    (hChange : r.isBegin = false) :
    Layered 0 (r :: sources) := by
  rcases hLayered with
    ⟨begins, changes, rfl, hLength, hBegins, hChanges⟩
  have hNone := List.eq_nil_of_length_eq_zero hLength
  subst hNone
  refine ⟨[], r :: changes, rfl, rfl, hBegins, ?_⟩
  exact List.forall_mem_cons.mpr ⟨hChange, hChanges⟩

/- Without its newest snapshot a stack has one begin less, if it has any. -/
theorem popped (hLayered : Layered depth sources) :
    Layered (depth - 1) sources.tail := by
  rcases hLayered with
    ⟨begins, changes, rfl, rfl, hBegins, hChanges⟩
  cases begins with
  | nil =>
      refine ⟨[], changes.tail, rfl, rfl, hBegins, ?_⟩
      intro r hMem
      exact hChanges r (List.mem_of_mem_tail hMem)
  | cons r rest =>
      exact
        ⟨rest, changes, rfl, rfl,
          (List.forall_mem_cons.mp hBegins).2, hChanges⟩

end Layered

/- A session without snapshots and transactions has nothing to account for. -/
theorem accounts_nil
    (hStack : s.stack = [])
    (hDepth : s.depth = 0) :
    Accounts s [] := by
  refine ⟨?_, ?_, fun _ => ⟨[], [], rfl, ?_, nofun, nofun⟩⟩
  · rw [hStack]
    rfl
  · rw [hDepth]
    exact Nat.zero_le _
  · rw [hDepth]
    rfl

theorem isBegin_eq_false_of_plain
    {r : Request}
    (hPlain : r.control? = none) :
    r.isBegin = false := by
  simp [Request.isBegin, hPlain]

/- The newest snapshot may be taken off together with a level of depth. -/
theorem Accounts.popped
    (hAccounts : Accounts s sources)
    {s' : Session (Outage Memory)}
    (hMode : s'.mode = s.mode)
    (hStack : s'.stack = s.stack.tail)
    (hDepth : s'.depth = s.depth - 1) :
    Accounts s' sources.tail := by
  have hTail := openBegins_le_tail sources
  have hCovered := hAccounts.covered
  refine ⟨?_, ?_, ?_⟩
  · rw [hStack, List.length_tail, List.length_tail,
      hAccounts.complete]
  · rw [hDepth]
    omega
  · rw [hMode, hDepth]
    exact fun hScoped => (hAccounts.layered hScoped).popped

/- The sources are accounted for after each request. -/
theorem Accounts.after
    (hSteady : Steady mode s)
    (hAccounts : Accounts s sources)
    (r : Request) :
    Accounts (s.after r) (sourcesAfter sources s r) := by
  have hMode : (s.after r).mode = s.mode :=
    (sameSettings_ends (handle_ends s r)).mode
  have hLayered := hAccounts.layered
  rw [← hMode] at hLayered
  cases nests_after hSteady r with
  | kept hOther hStack hDepth =>
      rw [sourcesAfter_of_kept r hStack]
      refine ⟨?_, ?_, ?_⟩
      · rw [hStack, hAccounts.complete]
      · rw [hDepth]
        exact hAccounts.covered
      · rw [hDepth]
        exact hLayered
  | opened hBegin hStack hDepth =>
      rw [sourcesAfter_of_pushed hStack]
      refine ⟨?_, ?_, ?_⟩
      · rw [hStack, List.length_cons, List.length_cons,
          hAccounts.complete]
      · rw [hDepth, openBegins_cons, if_pos hBegin]
        exact Nat.succ_le_succ hAccounts.covered
      · rw [hDepth]
        exact fun hScoped => (hLayered hScoped).opened hBegin
  | recorded hChange hOutside hStack hDepth =>
      rw [sourcesAfter_of_pushed hStack]
      refine ⟨?_, ?_, ?_⟩
      · rw [hStack, List.length_cons, List.length_cons,
          hAccounts.complete]
      · rw [hDepth, openBegins_cons]
        exact Nat.le_add_right_of_le hAccounts.covered
      · intro hScoped
        have hZero := hOutside (hMode ▸ hScoped)
        have hBelow := hLayered hScoped
        rw [hZero] at hBelow
        rw [hDepth, hZero]
        exact hBelow.recorded
          (isBegin_eq_false_of_plain hChange)
  | cleared hOther hStack hDepth =>
      rw [sourcesAfter_of_cleared hAccounts.complete hStack]
      exact accounts_nil hStack hDepth
  | closed hOther hScoped hInside hStack hDepth =>
      rw [sourcesAfter_of_popped hAccounts.complete hStack]
      exact hAccounts.popped hMode hStack hDepth
  | emptied hEmpty hStack hDepth =>
      rw [sourcesAfter_of_cleared hAccounts.complete hStack]
      exact accounts_nil hStack hDepth
  | returned hRollback hNonempty hStack hDepth =>
      rw [sourcesAfter_of_popped hAccounts.complete hStack]
      exact hAccounts.popped hMode hStack hDepth

theorem uncounts_cons_iff
    {r top : Request}
    (hRollback : r.control? = some .rollback)
    {rest : List Request} :
    Uncounts (top :: rest) r ↔
      top.isBegin = false ∧ 0 < openBegins rest := by
  constructor
  · rintro ⟨-, top', rest', hSources, hChange, hOpen⟩
    cases hSources
    exact ⟨hChange, hOpen⟩
  · rintro ⟨hChange, hOpen⟩
    exact ⟨hRollback, top, rest, rfl, hChange, hOpen⟩

/- A depth that counts the begins goes on to do so, unless the request is such a rollback. -/
theorem depth_counts_after_iff
    (hSteady : Steady mode s)
    (hAccounts : Accounts s sources)
    (hCounts : s.depth = openBegins sources)
    (r : Request) :
    (s.after r).depth =
        openBegins (sourcesAfter sources s r) ↔
      ¬Uncounts sources r := by
  have hComplete := hAccounts.complete
  have hNever
      (hOther : r.control? ≠ some .rollback) :
      ¬Uncounts sources r :=
    fun hUncounts => hOther hUncounts.1
  cases nests_after hSteady r with
  | kept hOther hStack hDepth =>
      rw [sourcesAfter_of_kept r hStack, hDepth]
      exact iff_of_true hCounts (hNever hOther)
  | opened hBegin hStack hDepth =>
      have hOther : r.control? ≠ some .rollback := by
        rw [Request.isBegin, beq_iff_eq] at hBegin
        rw [hBegin]
        exact nofun
      rw [sourcesAfter_of_pushed hStack, hDepth,
        openBegins_cons, if_pos hBegin, hCounts]
      exact iff_of_true rfl (hNever hOther)
  | recorded hChange hOutside hStack hDepth =>
      have hOther : r.control? ≠ some .rollback := by
        rw [hChange]
        exact nofun
      have hNoBegin := isBegin_eq_false_of_plain hChange
      rw [sourcesAfter_of_pushed hStack, hDepth,
        openBegins_cons, hNoBegin, hCounts]
      exact iff_of_true rfl (hNever hOther)
  | cleared hOther hStack hDepth =>
      rw [sourcesAfter_of_cleared hComplete hStack, hDepth]
      exact iff_of_true rfl (hNever hOther)
  | closed hOther hScoped hInside hStack hDepth =>
      have hBelow := (hAccounts.layered hScoped).popped
      rw [sourcesAfter_of_popped hComplete hStack, hDepth,
        hBelow.openBegins_eq]
      exact iff_of_true rfl (hNever hOther)
  | emptied hEmpty hStack hDepth =>
      rw [hEmpty] at hComplete
      have hNone := List.eq_nil_of_length_eq_zero hComplete
      subst hNone
      rw [sourcesAfter_of_cleared hAccounts.complete hStack,
        hDepth]
      refine iff_of_true rfl ?_
      rintro ⟨-, top, rest, hSources, -⟩
      cases hSources
  | returned hRollback hNonempty hStack hDepth =>
      rw [sourcesAfter_of_popped hComplete hStack, hDepth,
        hCounts]
      cases sources with
      | nil =>
          have hEmpty :=
            List.eq_nil_of_length_eq_zero hComplete.symm
          exact absurd hEmpty hNonempty
      | cons top rest =>
          rw [openBegins_cons, List.tail_cons,
            uncounts_cons_iff hRollback]
          cases top.isBegin with
          | true => simp
          | false =>
              simp only [Bool.false_eq_true, if_false,
                true_and]
              omega

------------------------------------------------------------
-- Runs
------------------------------------------------------------

theorem accounts_afterAll
    (hSteady : Steady mode s)
    (hStack : s.stack = [])
    (hDepth : s.depth = 0)
    (rs : List Request) :
    Accounts (s.afterAll rs) (s.sources rs) := by
  induction rs using List.reverseRecOn with
  | nil => exact accounts_nil hStack hDepth
  | append_singleton rs r ih =>
      rw [sources, sourcesFrom_concat, afterAll_concat]
      exact ih.after (hSteady.afterAll rs) r

/-
  A run that starts without snapshots and transactions.  Its
  depth is never above the number of begins with a snapshot
  on the stack.  It is this number throughout exactly if no
  rollback takes back the snapshot of a change above the one
  of a begin, which never happens in scoped mode.
-/
theorem depth_counts_iff
    (s : Session (Outage Memory))
    (hSteady : Steady mode s)
    (hStack : s.stack = [])
    (hDepth : s.depth = 0)
    (rs : List Request) :
    (s.afterAll rs).depth ≤ openBegins (s.sources rs) ∧
    ((∀ done, done <+: rs →
        (s.afterAll done).depth =
          openBegins (s.sources done)) ↔
      ∀ done r, done ++ [r] <+: rs →
        ¬Uncounts (s.sources done) r) ∧
    (mode = .scoped →
      (s.afterAll rs).depth =
        openBegins (s.sources rs)) := by
  have hAccounts := accounts_afterAll hSteady hStack hDepth
  have hStep
      (done : List Request)
      (r : Request)
      (hCounts :
        (s.afterAll done).depth =
          openBegins (s.sources done)) :
      (s.afterAll (done ++ [r])).depth =
          openBegins (s.sources (done ++ [r])) ↔
        ¬Uncounts (s.sources done) r := by
    rw [sources, sourcesFrom_concat, afterAll_concat]
    exact depth_counts_after_iff (hSteady.afterAll done)
      (hAccounts done) hCounts r
  refine ⟨(hAccounts rs).covered, ⟨?_, ?_⟩, ?_⟩
  · intro hCounts done r hRun
    have hBefore :=
      hCounts done ((List.prefix_append done [r]).trans hRun)
    exact (hStep done r hBefore).mp (hCounts _ hRun)
  · intro hNever done hRun
    induction done using List.reverseRecOn with
    | nil => exact hDepth
    | append_singleton done r ih =>
        have hBefore :=
          ih ((List.prefix_append done [r]).trans hRun)
        exact (hStep done r hBefore).mpr (hNever done r hRun)
  · rintro rfl
    have hScoped : (s.afterAll rs).mode = .scoped :=
      (hSteady.afterAll rs).mode
    exact ((hAccounts rs).layered hScoped).openBegins_eq.symm

/-
  Of two transactions of scoped mode the inner one is rolled
  back: one is open, and its begin has a snapshot on the
  stack.
-/
theorem nested_transaction_is_counted :
    let s := inMemory .scoped none []
    let rs :=
      ["CREATE DATABASE d", "BEGIN", "CREATE DATABASE e",
        "BEGIN", "ROLLBACK"].map (Request.statement epoch)
    (s.afterAll rs).depth = 1 ∧
      (s.afterAll rs).depth = openBegins (s.sources rs) := by
  intro s rs
  have hSteady : Steady .scoped s := ⟨rfl, rfl, rfl⟩
  have hCounts := depth_counts_iff s hSteady rfl rfl rs
  refine ⟨?_, hCounts.2.2 rfl⟩
  decide +kernel

/-
  A database is created in a transaction of literal mode, and
  a rollback takes the creation back: the snapshot of the
  begin is still there, and no transaction is open any more.
-/
theorem rollback_in_transaction_is_miscounted :
    let s := inMemory .literal none []
    let rs :=
      ["BEGIN", "CREATE DATABASE d", "ROLLBACK"].map
        (Request.statement epoch)
    Steady .literal s ∧ s.stack = [] ∧ s.depth = 0 ∧
      s.sources rs = [.statement epoch "BEGIN"] ∧
      (s.afterAll rs).depth ≠ openBegins (s.sources rs) := by
  refine ⟨⟨rfl, rfl, rfl⟩, rfl, rfl, ?_, ?_⟩
  · decide +kernel
  · decide +kernel

end Session

end Rowstore
