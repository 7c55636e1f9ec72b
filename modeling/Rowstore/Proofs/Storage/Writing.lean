import Rowstore.Proofs.Database.Lossless
import Rowstore.Proofs.Storage.Folder

/-
  Calls of the backend in a directory while writing may fail
  at any of its steps.  A call that succeeds does what it
  does in memory.  One that fails leaves nothing but a
  temporary file.  So the snapshots held in memory are always
  those that opening the directory again would read.

  Main declarations:
    * `Backend.Operation`
    * `Memory.run_operation` and `Folder.run_operation`
    * `Folder.Mirrors` and `Folder.Mirrors.operation`
    * `Tandem` and `Tandem.stays_in_step`
-/

------------------------------------------------------------
-- Operations
------------------------------------------------------------

namespace Rowstore

open Execution

namespace Backend

/- The calls of a backend that change it. -/
inductive Operation where
| save (c : Collection)
| push (c : Collection)
| pop
| clear

namespace Operation

/- Make the call; none but the one for the newest snapshot has an answer. -/
def call
    {β : Type}
    [Backend β] : Operation → Call β (Option Collection)
| save c => do
  Backend.save c
  pure none
| push c => do
  Backend.push c
  pure none
| pop => Backend.pop
| clear => do
  Backend.clear
  pure none

/- The collections that are handed over. -/
def given : Operation → List Collection
| save c => [c]
| push c => [c]
| pop => []
| clear => []

/- The collection that is stored after the call. -/
def storedAfter
    (stored : Collection) : Operation → Collection
| save c => c
| push _ => stored
| pop => stored
| clear => stored

/- The stack after the call. -/
def stackAfter
    (limit : Option Nat)
    (stack : List Collection) : Operation → List Collection
| save _ => stack
| push c => pushWithin limit c stack
| pop => stack.tail
| clear => []

/- What the call answers. -/
def answer
    (stack : List Collection) : Operation → Option Collection
| save _ => none
| push _ => none
| pop => stack.head?
| clear => none

end Operation

end Backend

open Backend (Operation)

namespace Memory

/- In memory every call succeeds. -/
theorem run_operation
    (o : Operation)
    (m : Memory) :
    (o.call : Call Memory (Option Collection)).run.run m =
      (.ok (o.answer m.stack),
        { m with
          stored := o.storedAfter m.stored
          stack := o.stackAfter m.limit m.stack }) := by
  cases o with
  | save c => rfl
  | push c => rfl
  | pop => rfl
  | clear => rfl

end Memory

namespace Folder

/- The file that a call writes. -/
def fileOf : Operation → String
| .save _ => databasesFile
| .push _ => snapshotsFile
| .pop => snapshotsFile
| .clear => snapshotsFile

/- The document that a call writes. -/
def documentOf
    (limit : Option Nat)
    (stack : List Collection) : Operation → Json
| .save c => c.toJson
| o => stackToJson (o.stackAfter limit stack)

theorem run_setStack
    (stack : List Collection)
    (f : Folder) :
    (setStack stack).run.run f =
      match f.directory.faultOf f.options.syncOnWrite
          snapshotsFile with
      | none =>
          (.ok (),
            { f with
              directory :=
                f.directory.replaced snapshotsFile
                  (textOf f.options (stackToJson stack))
              stack := stack })
      | some fault =>
          (.error (.io fault.detail),
            { f with
              directory :=
                f.directory.leftover snapshotsFile
                  (textOf f.options (stackToJson stack))
                  fault.step }) := by
  unfold setStack
  simp only [run_bind, run_writeFile]
  cases f.directory.faultOf f.options.syncOnWrite
      snapshotsFile with
  | none => rfl
  | some fault => rfl

/-
  A call writes one file, and its stack and its answer are
  those in memory, unless it meets a fault.
-/
theorem run_operation
    (o : Operation)
    (f : Folder) :
    (o.call : Call Folder (Option Collection)).run.run f =
      match f.directory.faultOf f.options.syncOnWrite
          (fileOf o) with
      | none =>
          (.ok (o.answer f.stack),
            { f with
              directory :=
                f.directory.replaced (fileOf o)
                  (textOf f.options
                    (documentOf f.options.snapshotLimit
                      f.stack o))
              stack :=
                o.stackAfter f.options.snapshotLimit f.stack })
      | some fault =>
          (.error (.io fault.detail),
            { f with
              directory :=
                f.directory.leftover (fileOf o)
                  (textOf f.options
                    (documentOf f.options.snapshotLimit
                      f.stack o))
                  fault.step }) := by
  cases o with
  | save c =>
      simp only [Operation.call, Backend.save, save, run_bind,
        run_writeFile, fileOf, documentOf]
      cases f.directory.faultOf f.options.syncOnWrite
          databasesFile with
      | none => rfl
      | some fault => rfl
  | push c =>
      simp only [Operation.call, Backend.push, push, run_bind,
        run_get, run_setStack, fileOf, documentOf]
      cases f.directory.faultOf f.options.syncOnWrite
          snapshotsFile with
      | none => rfl
      | some fault => rfl
  | pop =>
      simp only [Operation.call, Backend.pop, pop, run_bind,
        run_get, run_setStack, fileOf, documentOf]
      cases f.directory.faultOf f.options.syncOnWrite
          snapshotsFile with
      | none => rfl
      | some fault => rfl
  | clear =>
      simp only [Operation.call, Backend.clear, clear,
        run_bind, run_setStack, fileOf, documentOf]
      cases f.directory.faultOf f.options.syncOnWrite
          snapshotsFile with
      | none => rfl
      | some fault => rfl

theorem fileOf_eq (o : Operation) :
    fileOf o = databasesFile ∨ fileOf o = snapshotsFile := by
  cases o with
  | save c => exact .inl rfl
  | push c => exact .inr rfl
  | pop => exact .inr rfl
  | clear => exact .inr rfl

/- A call that fails leaves the data of the directory. -/
theorem sameData_leftover
    (o : Operation)
    (d : Directory)
    (text : String)
    (step : WriteStep) :
    SameData d (d.leftover (fileOf o) text step) := by
  rcases fileOf_eq o with hFile | hFile
  · rw [hFile]
    exact .leftover d step (by decide) (by decide)
  · rw [hFile]
    exact .leftover d step (by decide) (by decide)

end Folder

end Rowstore

------------------------------------------------------------
-- A Directory And A Memory
------------------------------------------------------------

namespace Rowstore

open Execution
open Backend (Operation)

namespace Folder

/- The collection is loaded. -/
def Loads
    (f : Folder)
    (c : Collection) : Prop :=
  (Backend.load : Call Folder Collection).run.run f =
    (.ok c, f)

theorem loads_iff
    {f : Folder}
    {c : Collection} :
    f.Loads c ↔
      readFile Collection.ofJson? .empty databasesFile
        f.directory = .ok c := by
  have hRun :
      (Backend.load : Call Folder Collection).run.run f =
        (readFile Collection.ofJson? .empty databasesFile
          f.directory, f) := rfl
  unfold Loads
  rw [hRun, Prod.mk.injEq]
  exact and_iff_left rfl

/-
  A directory has the snapshots of a memory, both in its
  backend and in its file, and it loads what the memory
  stores, if that is read as it was written.
-/
structure Mirrors
    (f : Folder)
    (m : Memory) : Prop where
  stack : f.stack = m.stack
  limit : f.options.snapshotLimit = m.limit
  snapshots :
    readFile stackOfJson? [] snapshotsFile f.directory =
      .ok m.stack
  survive : ∀ c ∈ m.stack, c.Survives
  loads : m.stored.Survives → f.Loads m.stored

/- A stack is read as it was written if its snapshots are. -/
theorem stackOfJson?_stackToJson
    {stack : List Collection}
    (hSurvive : ∀ c ∈ stack, c.Survives) :
    stackOfJson? (stackToJson stack) = some stack := by
  have hList :
      Json.list? Collection.ofJson?
          (.array (stack.reverse.map Collection.toJson)) =
        some stack.reverse :=
    Json.list?_array_map fun c hMem =>
      hSurvive c (List.mem_reverse.mp hMem)
  unfold stackOfJson? stackToJson
  rw [hList, Option.map_some, List.reverse_reverse]

theorem survive_stackAfter
    {o : Operation}
    (hGiven : ∀ c, o = .push c → c.Survives)
    {limit : Option Nat}
    {stack : List Collection}
    (hStack : ∀ c ∈ stack, c.Survives) :
    ∀ c ∈ o.stackAfter limit stack, c.Survives := by
  intro d hMem
  cases o with
  | save c => exact hStack d hMem
  | push c =>
      rcases mem_of_mem_pushWithin hMem with rfl | hMem
      · exact hGiven d rfl
      · exact hStack d hMem
  | pop => exact hStack d (List.mem_of_mem_tail hMem)
  | clear => cases hMem

namespace Mirrors

variable {f : Folder} {m : Memory}

/- A mirror stays one if only the data of its directory are as they were. -/
theorem sameData
    (hMirrors : f.Mirrors m)
    {d : Directory}
    (hSame : SameData f.directory d) :
    { f with directory := d }.Mirrors m where
  stack := hMirrors.stack
  limit := hMirrors.limit
  snapshots := by
    rw [readFile_congr hSame.snapshots]
    exact hMirrors.snapshots
  survive := hMirrors.survive
  loads := by
    intro hSurvives
    rw [loads_iff, readFile_congr hSame.databases]
    exact loads_iff.mp (hMirrors.loads hSurvives)

theorem save
    (hMirrors : f.Mirrors m)
    (c : Collection) :
    { f with
      directory :=
        f.directory.replaced databasesFile
          (textOf f.options c.toJson) }.Mirrors
      { m with stored := c } where
  stack := hMirrors.stack
  limit := hMirrors.limit
  snapshots := by
    rw [readFile_congr (Directory.file?_replaced_of_ne
      (by decide) (by decide))]
    exact hMirrors.snapshots
  survive := hMirrors.survive
  loads := by
    intro hSurvives
    rw [loads_iff]
    exact
      (readFile_eq_ok_iff Collection.ofJson? .empty
        c.proper_toJson Directory.file?_replaced).mpr
        hSurvives

theorem setStack
    (hMirrors : f.Mirrors m)
    {stack : List Collection}
    (hSurvive : ∀ c ∈ stack, c.Survives) :
    { f with
      directory :=
        f.directory.replaced snapshotsFile
          (textOf f.options (stackToJson stack))
      stack := stack }.Mirrors
      { m with stack := stack } where
  stack := rfl
  limit := hMirrors.limit
  snapshots :=
    (readFile_eq_ok_iff stackOfJson? []
      (proper_stackToJson stack)
      Directory.file?_replaced).mpr
      (stackOfJson?_stackToJson hSurvive)
  survive := hSurvive
  loads := by
    intro hStored
    rw [loads_iff, readFile_congr
      (Directory.file?_replaced_of_ne (by decide) (by decide))]
    exact loads_iff.mp (hMirrors.loads hStored)

/- What a call writes is what the memory has after the call. -/
theorem written
    (hMirrors : f.Mirrors m)
    {o : Operation}
    (hPushed : ∀ c, o = .push c → c.Survives) :
    { f with
      directory :=
        f.directory.replaced (fileOf o)
          (textOf f.options
            (documentOf f.options.snapshotLimit f.stack o))
      stack :=
        o.stackAfter f.options.snapshotLimit
          f.stack }.Mirrors
      { m with
        stored := o.storedAfter m.stored
        stack := o.stackAfter m.limit m.stack } := by
  have hSurvive :
      ∀ c ∈ o.stackAfter m.limit m.stack, c.Survives :=
    survive_stackAfter hPushed hMirrors.survive
  rw [hMirrors.stack, hMirrors.limit]
  cases o with
  | save c =>
      have hSaved := hMirrors.save c
      rw [hMirrors.stack] at hSaved
      exact hSaved
  | push c => exact hMirrors.setStack hSurvive
  | pop => exact hMirrors.setStack hSurvive
  | clear => exact hMirrors.setStack hSurvive

/- With other options the limit of the stack is another one. -/
theorem withOptions
    (hMirrors : f.Mirrors m)
    (options : StorageOptions) :
    { f with options := options }.Mirrors
      { m with limit := options.snapshotLimit } where
  stack := hMirrors.stack
  limit := rfl
  snapshots := hMirrors.snapshots
  survive := hMirrors.survive
  loads := by
    intro hStored
    have hRead := loads_iff.mp (hMirrors.loads hStored)
    exact loads_iff.mpr hRead

/- Opening the directory again gives the backend that is there. -/
theorem reopened
    (hMirrors : f.Mirrors m)
    (options : StorageOptions) :
    ofDirectory options f.directory =
      .ok { f with options := options } := by
  unfold ofDirectory
  rw [hMirrors.snapshots, hMirrors.stack]
  rfl

end Mirrors

/-
  A call in a directory fails just if it meets a fault, and
  then the data stay as they were.  Otherwise its answer and
  its effect are those in memory.
-/
theorem Mirrors.operation
    {f : Folder}
    {m : Memory}
    (hMirrors : f.Mirrors m)
    {o : Operation}
    (hPushed : ∀ c, o = .push c → c.Survives) :
    (∃ fault,
      f.directory.faultOf f.options.syncOnWrite (fileOf o) =
          some fault ∧
        ∃ d,
          SameData f.directory d ∧
            o.call.run.run f =
              (.error (.io fault.detail),
                { f with directory := d })) ∨
      (f.directory.faultOf f.options.syncOnWrite (fileOf o) =
          none ∧
        ∃ a f' m',
          o.call.run.run f = (.ok a, f') ∧
            o.call.run.run m = (.ok a, m') ∧
            f'.options = f.options ∧
            f'.directory.fault? = f.directory.fault? ∧
            f'.Mirrors m') := by
  cases hFault :
      f.directory.faultOf f.options.syncOnWrite
        (fileOf o) with
  | some fault =>
      have hRun := run_operation o f
      rw [hFault] at hRun
      exact .inl ⟨fault, rfl, _,
        sameData_leftover o f.directory _ fault.step, hRun⟩
  | none =>
      refine .inr ⟨rfl, _, _, _, ?_,
        Memory.run_operation o m, ?_, ?_,
        hMirrors.written hPushed⟩
      · rw [run_operation, hFault, hMirrors.stack]
      · rfl
      · rfl

end Folder

end Rowstore

------------------------------------------------------------
-- In Tandem
------------------------------------------------------------

namespace Rowstore

open Backend (Operation)

/- What keeps the files of the directory from being replaced from now on. -/
def Folder.withFaults
    (f : Folder)
    (faults : String → Option Fault) : Folder :=
  { f with directory := { f.directory with fault? := faults } }

/-
  A backend in a directory, and one in memory, of which just
  those calls are made that succeed in the directory.
-/
structure Tandem where
  folder : Folder
  memory : Memory

namespace Tandem

/-
  One turn: a call while there are faults, or opening the
  directory again, with any options.
-/
inductive Turn where
| call
    (o : Operation)
    (faults : String → Option Fault)
| reopen (options : StorageOptions)

/- The collections that are handed over in a turn. -/
def Turn.given : Turn → List Collection
| call o _ => o.given
| reopen _ => []

/- A directory that was opened, and the memory of what it loads and has on its stack. -/
def start
    (f : Folder)
    (stored : Collection) : Tandem :=
  { folder := f
    memory :=
      { stored := stored
        stack := f.stack
        limit := f.options.snapshotLimit } }

/- Both backends after a turn. -/
def after (p : Tandem) : Turn → Tandem
| .call o faults =>
  match o.call.run.run (p.folder.withFaults faults) with
  | (.ok _, f) =>
    { folder := f
      memory := (o.call.run.run p.memory).2 }
  | (.error _, f) => { p with folder := f }
| .reopen options =>
  match Folder.ofDirectory options p.folder.directory with
  | .ok f =>
    { folder := f
      memory := { p.memory with limit := options.snapshotLimit } }
  | .error _ => p

/- Both backends after turns, one after the other. -/
def afterAll
    (p : Tandem)
    (turns : List Turn) : Tandem :=
  turns.foldl after p

/- The directory mirrors the memory, whose collection is read as it was written. -/
def InStep (p : Tandem) : Prop :=
  p.folder.Mirrors p.memory ∧ p.memory.stored.Survives

variable {p : Tandem}

theorem inStep_start
    {options : StorageOptions}
    {d : Directory}
    {f : Folder}
    (hOpened : Folder.ofDirectory options d = .ok f)
    {c : Collection}
    (hLoads : f.Loads c)
    (hSurvives : c.Survives)
    (hSnapshots : ∀ s ∈ f.stack, s.Survives) :
    (start f c).InStep := by
  rcases Folder.eq_of_ofDirectory hOpened with ⟨rfl, hRead⟩
  exact
    ⟨{ stack := rfl
       limit := rfl
       snapshots := hRead
       survive := hSnapshots
       loads := fun _ => hLoads }, hSurvives⟩

theorem survives_storedAfter
    {o : Operation}
    (hGiven : ∀ c ∈ o.given, c.Survives)
    {stored : Collection}
    (hStored : stored.Survives) :
    (o.storedAfter stored).Survives := by
  cases o with
  | save c => exact hGiven c (List.mem_singleton_self c)
  | push c => exact hStored
  | pop => exact hStored
  | clear => exact hStored

theorem survives_of_push
    {o : Operation}
    (hGiven : ∀ c ∈ o.given, c.Survives)
    {c : Collection}
    (hPush : o = .push c) :
    c.Survives := by
  subst hPush
  exact hGiven c (List.mem_singleton_self c)

theorem InStep.withFaults
    (hInStep : p.InStep)
    (faults : String → Option Fault) :
    (p.folder.withFaults faults).Mirrors p.memory :=
  hInStep.1.sameData ⟨rfl, rfl⟩

/- No turn takes the two backends out of step. -/
theorem InStep.after
    (hInStep : p.InStep)
    {turn : Turn}
    (hGiven : ∀ c ∈ turn.given, c.Survives) :
    (p.after turn).InStep := by
  cases turn with
  | call o faults =>
      have hPushed : ∀ c, o = .push c → c.Survives :=
        fun _ hPush => survives_of_push hGiven hPush
      unfold Tandem.after
      rcases (hInStep.withFaults faults).operation hPushed with
        ⟨fault, _, d, hSame, hRun⟩ |
        ⟨_, a, f', m', hRun, hMemory, _, _, hMirrors⟩
      · -- The memory does not make a call that has failed.
        simp only [hRun]
        exact
          ⟨(hInStep.withFaults faults).sameData hSame,
            hInStep.2⟩
      · simp only [hRun, hMemory]
        refine ⟨hMirrors, ?_⟩
        rw [Memory.run_operation] at hMemory
        cases hMemory
        exact survives_storedAfter hGiven hInStep.2
  | reopen options =>
      have hMirrors := hInStep.1
      unfold Tandem.after
      simp only [hMirrors.reopened options]
      exact ⟨hMirrors.withOptions options, hInStep.2⟩

theorem InStep.afterAll
    (hInStep : p.InStep)
    {turns : List Turn}
    (hGiven :
      ∀ turn ∈ turns, ∀ c ∈ turn.given, c.Survives) :
    (p.afterAll turns).InStep := by
  induction turns generalizing p with
  | nil => exact hInStep
  | cons turn turns ih =>
      rw [List.forall_mem_cons] at hGiven
      exact ih (hInStep.after hGiven.1) hGiven.2

/-
  After any turns, opening the directory again gives the
  backend that is there, its snapshots are those in memory,
  and it loads what was saved last with success.  A further
  call succeeds unless it meets a fault, and then has the
  answer and the effect that it has in memory; if it meets
  one, the directory keeps its data and the backend its
  stack.
-/
theorem stays_in_step
    {options : StorageOptions}
    {d : Directory}
    {f : Folder}
    (hOpened : Folder.ofDirectory options d = .ok f)
    {c : Collection}
    (hLoads : f.Loads c)
    (hSurvives : c.Survives)
    (hSnapshots : ∀ s ∈ f.stack, s.Survives)
    {turns : List Turn}
    (hGiven :
      ∀ turn ∈ turns, ∀ s ∈ turn.given, s.Survives) :
    let p := (start f c).afterAll turns
    Folder.ofDirectory p.folder.options p.folder.directory =
        .ok p.folder ∧
      p.folder.stack = p.memory.stack ∧
      p.folder.Loads p.memory.stored ∧
      ∀ (o : Operation) (faults : String → Option Fault),
        (∀ s ∈ o.given, s.Survives) →
          let b := p.folder.withFaults faults
          match b.directory.faultOf b.options.syncOnWrite
              (Folder.fileOf o) with
          | none =>
              ∃ a f' m',
                o.call.run.run b = (.ok a, f') ∧
                  o.call.run.run p.memory = (.ok a, m') ∧
                  f'.stack = m'.stack ∧
                  f'.Loads m'.stored
          | some fault =>
              ∃ d',
                Folder.SameData b.directory d' ∧
                  o.call.run.run b =
                    (.error (.io fault.detail),
                      { b with directory := d' }) := by
  intro p
  have hInStep : p.InStep :=
    (inStep_start hOpened hLoads hSurvives
      hSnapshots).afterAll hGiven
  rcases hInStep with ⟨hMirrors, hStored⟩
  refine
    ⟨hMirrors.reopened p.folder.options, hMirrors.stack,
      hMirrors.loads hStored, ?_⟩
  intro o faults hHanded b
  have hPushed : ∀ s, o = .push s → s.Survives :=
    fun _ hPush => survives_of_push hHanded hPush
  have hFaulty : b.Mirrors p.memory :=
    InStep.withFaults ⟨hMirrors, hStored⟩ faults
  rcases hFaulty.operation hPushed with
    ⟨fault, hFault, d', hSame, hRun⟩ |
    ⟨hNone, a, f', m', hRun, hMemory, _, _, hAfter⟩
  · rw [hFault]
    exact ⟨d', hSame, hRun⟩
  · rw [hNone]
    refine ⟨a, f', m', hRun, hMemory, hAfter.stack, ?_⟩
    apply hAfter.loads
    rw [Memory.run_operation] at hMemory
    cases hMemory
    exact survives_storedAfter hHanded hStored

/- A snapshot that cannot be written is on no stack, and the one before it is still there. -/
theorem unwritten_snapshot_is_lost :
    let options : StorageOptions :=
      { StorageOptions.production "data" with
        snapshotLimit := some 1 }
    let f : Folder :=
      { directory := .empty
        options := options
        stack := [] }
    let s : Collection := ⟨[Database.new ⟨⟨7⟩⟩ "d"]⟩
    let works : String → Option Fault := fun _ => none
    let breaks : String → Option Fault := fun _ =>
      some
        { step := .rename
          detail := "read-only" }
    let turns : List Turn :=
      [.call (.push .empty) works, .call (.save s) works,
        .call (.push s) breaks, .reopen options]
    let p := (start f .empty).afterAll turns
    Folder.ofDirectory options f.directory = .ok f ∧
      f.Loads .empty ∧ s.Survives ∧
      Folder.ofDirectory p.folder.options
          p.folder.directory = .ok p.folder ∧
      p.folder.stack = [.empty] ∧
      p.folder.Loads s := by
  intro options f s works breaks turns p
  have hOpened :
      Folder.ofDirectory options f.directory = .ok f := rfl
  have hLoads : f.Loads .empty := rfl
  have hEmpty : Collection.empty.Survives := by
    decide +kernel
  have hSurvives : s.Survives := by decide +kernel
  have hGiven :
      ∀ turn ∈ turns, ∀ c ∈ turn.given, c.Survives := by
    simp [turns, Turn.given, Operation.given, hEmpty,
      hSurvives]
  have hStep :=
    stays_in_step hOpened hLoads hEmpty
      (List.forall_mem_nil _) hGiven
  have hRun : (start f .empty).afterAll turns = p := rfl
  rw [hRun] at hStep
  have hStack : p.memory.stack = [.empty] := by
    decide +kernel
  have hStored : p.memory.stored = s := by decide +kernel
  clear_value p
  rcases hStep with ⟨hReopened, hSame, hLoaded, _⟩
  refine
    ⟨hOpened, hLoads, hSurvives, hReopened, ?_, ?_⟩
  · exact hSame.trans hStack
  · rw [← hStored]
    exact hLoaded

end Tandem

end Rowstore
