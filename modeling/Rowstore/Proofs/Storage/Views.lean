import Rowstore.Proofs.Database.Document
import Rowstore.Proofs.Storage.Depot

/-
  What is seen of the collection that a backend loads, such as
  the list of its databases.  Only storing a collection changes
  this; a call that fails does not, and neither do the
  snapshots nor whatever happens between calls.

  In a directory a collection is read as it was written but
  for the last digits of its numbers, so only what reading
  keeps can be seen in one.

  Main declarations:
    * `Backend.Shows`
    * `Memory.shows`
    * `Folder.shows`
    * `Depot.shows`
    * `Outage.shows`
-/

namespace Rowstore

open Execution

------------------------------------------------------------
-- Views
------------------------------------------------------------

/- What is seen of a collection is not changed by writing and reading it. -/
def Collection.IsKept
    {γ : Type}
    (view : Collection → γ) : Prop :=
  ∀ {s s' : Collection},
    ofJson? s.toJson = some s' → view s' = view s

/-
  What is seen of a backend is what is seen of the collection
  that it loads and, if it still loads one after storing a
  collection, of that one.
-/
structure Backend.Shows
    (β : Type)
    [Backend β]
    [Backend.History β]
    {γ : Type}
    (view : Collection → γ)
    (seen? : β → Option γ) : Prop where
  load :
    ∀ seen,
      Leads (seen? · = seen) (Backend.load : Call β Collection)
        (fun c b => seen? b = seen ∧ seen = some (view c))
        (seen? · = seen)
  save :
    ∀ seen c,
      Leads (seen? · = seen) (Backend.save c : Call β Unit)
        (fun _ b => ∀ x ∈ seen? b, x = view c)
        (seen? · = seen)
  push :
    ∀ seen c,
      Leads (seen? · = seen) (Backend.push c : Call β Unit)
        (fun _ => (seen? · = seen)) (seen? · = seen)
  pop :
    ∀ seen,
      Leads (seen? · = seen)
        (Backend.pop : Call β (Option Collection))
        (fun _ => (seen? · = seen)) (seen? · = seen)
  clear :
    ∀ seen,
      Leads (seen? · = seen) (Backend.clear : Call β Unit)
        (fun _ => (seen? · = seen)) (seen? · = seen)
  resumes :
    ∀ {b b' : β},
      Backend.History.Resumes b b' → seen? b' = seen? b

section

variable {β γ : Type} [Backend β] [Backend.History β]
variable {view : Collection → γ} {seen? : β → Option γ}
variable {F : Option γ → Prop}

omit [Backend β] [Backend.History β] in
/- A call that does not change what is seen keeps what depends on this only. -/
theorem ensures_of_seen
    {α : Type}
    {call : Call β α}
    {Q : α → Prop}
    (hCall :
      ∀ seen,
        Leads (seen? · = seen) call
          (fun a b => seen? b = seen ∧ (F seen → Q a))
          (seen? · = seen)) :
    Ensures (fun b => F (seen? b)) call Q := by
  intro b hSeen
  rcases hRun : call.run.run b with ⟨e | a, b'⟩
  · have hSame := (hCall (seen? b)).error rfl hRun
    refine ⟨?_, fun _ hOk => by cases hOk⟩
    change F (seen? b')
    rw [hSame]
    exact hSeen
  · have hEnd := (hCall (seen? b)).ok rfl hRun
    refine ⟨?_, fun _ hOk => by cases hOk; exact hEnd.2 hSeen⟩
    change F (seen? b')
    rw [hEnd.1]
    exact hSeen

/- A property of what is seen holds as long as collections that show it are stored. -/
theorem Backend.Shows.stores
    (hShows : Backend.Shows β view seen?)
    {P : Collection → Prop}
    (hLoaded : ∀ c, F (some (view c)) → P c)
    (hStored :
      ∀ c, P c → ∀ seen, (∀ x ∈ seen, x = view c) → F seen) :
    Backend.Stores β P (fun b => F (seen? b)) where
  load := by
    apply ensures_of_seen
    intro seen
    refine (hShows.load seen).imp ?_ fun _ hSame => hSame
    rintro c b ⟨hSame, rfl⟩
    exact ⟨hSame, hLoaded c⟩
  save := by
    intro c hGiven b hSeen
    have hSave := hShows.save (seen? b) c
    rcases hRun :
      (Backend.save c : Call β Unit).run.run b with
      ⟨e | u, b'⟩
    · refine ⟨?_, fun _ _ => trivial⟩
      change F (seen? b')
      rw [hSave.error rfl hRun]
      exact hSeen
    · exact
        ⟨hStored c hGiven _ (hSave.ok rfl hRun),
          fun _ _ => trivial⟩
  push := by
    intro c _
    apply ensures_of_seen
    intro seen
    exact
      (hShows.push seen c).imp
        (fun _ _ hSame => ⟨hSame, fun _ => trivial⟩)
        fun _ hSame => hSame
  pop := by
    apply ensures_of_seen
    intro seen
    exact
      (hShows.pop seen).imp
        (fun _ _ hSame => ⟨hSame, fun _ => trivial⟩)
        fun _ hSame => hSame
  clear := by
    apply ensures_of_seen
    intro seen
    exact
      (hShows.clear seen).imp
        (fun _ _ hSame => ⟨hSame, fun _ => trivial⟩)
        fun _ hSame => hSame

end

------------------------------------------------------------
-- In Memory
------------------------------------------------------------

namespace Memory

variable {γ : Type}

/- What is seen of the stored collection. -/
def seen?
    (view : Collection → γ)
    (m : Memory) : Option γ :=
  some (view m.stored)

theorem leads_pop
    (view : Collection → γ)
    (seen : Option γ) :
    Leads (seen? view · = seen) pop
      (fun _ => (seen? view · = seen))
      (seen? view · = seen) := by
  apply Leads.bind Leads.of_get
  intro m
  apply Leads.bind (Q := fun _ => (seen? view · = seen))
  · apply Leads.of_set
    rintro _ ⟨rfl, hSeen⟩
    exact hSeen
  · intro _
    exact Leads.of_pure fun _ hSeen => hSeen

theorem shows (view : Collection → γ) :
    Backend.Shows Memory view (seen? view) where
  load := by
    intro seen
    apply Leads.bind Leads.of_get
    intro m
    apply Leads.of_pure
    rintro _ ⟨rfl, rfl⟩
    exact ⟨rfl, rfl⟩
  save := by
    intro seen c
    apply Leads.of_modify
    rintro m _ _ ⟨⟩
    rfl
  push := by
    intro seen c
    apply Leads.of_modify
    exact fun _ hSeen => hSeen
  pop := leads_pop view
  clear := by
    intro seen
    apply Leads.of_modify
    exact fun _ hSeen => hSeen
  resumes := by
    rintro m _ rfl
    rfl

end Memory

------------------------------------------------------------
-- In A Directory
------------------------------------------------------------

namespace Folder

variable {γ : Type}

/- What is seen of the collection that is read. -/
def seen?
    (view : Collection → γ)
    (f : Folder) : Option γ :=
  (readFile Collection.ofJson? .empty databasesFile
    f.directory).toOption.map view

variable {view : Collection → γ} {f f' : Folder}

theorem seen?_eq_some_iff
    {seen : γ} :
    f.seen? view = some seen ↔
      ∃ c,
        readFile Collection.ofJson? .empty databasesFile
            f.directory = .ok c ∧
          view c = seen := by
  unfold seen?
  cases readFile Collection.ofJson? .empty databasesFile
      f.directory with
  | error e => simp [Except.toOption]
  | ok c => simp [Except.toOption]

theorem seen?_congr
    (hSame :
      f'.directory.file? databasesFile =
        f.directory.file? databasesFile) :
    f'.seen? view = f.seen? view := by
  unfold seen?
  rw [readFile_congr hSame]

/- A written document is in its file, or a temporary file is left over. -/
theorem writeFile_cases
    {name : String}
    {j : Json}
    {answer : Except Error Unit}
    (hRun : (writeFile name j).run.run f = (answer, f')) :
    (answer = .ok () ∧
      f' =
        { f with
          directory :=
            f.directory.replaced name (textOf f.options j) }) ∨
    ∃ e step,
      answer = .error e ∧
        f' =
          { f with
            directory :=
              f.directory.leftover name (textOf f.options j)
                step } := by
  rw [run_writeFile] at hRun
  cases hFault :
      f.directory.faultOf f.options.syncOnWrite name with
  | none =>
      rw [hFault] at hRun
      cases hRun
      exact .inl ⟨rfl, rfl⟩
  | some fault =>
      rw [hFault] at hRun
      cases hRun
      exact .inr ⟨_, fault.step, rfl, rfl⟩

variable {seen : Option γ}

theorem leads_save
    (hKept : Collection.IsKept view)
    (c : Collection) :
    Leads (seen? view · = seen) (save c)
      (fun _ f => ∀ x ∈ f.seen? view, x = view c)
      (seen? view · = seen) where
  ok := by
    intro f f' _ _ hRun x hSeen
    rcases writeFile_cases hRun with
      ⟨_, rfl⟩ | ⟨e, step, hError, _⟩
    · rcases seen?_eq_some_iff.mp hSeen with
        ⟨c', hRead, rfl⟩
      rw [readFile_eq_ok_iff Collection.ofJson? .empty
        c.proper_toJson Directory.file?_replaced] at hRead
      exact hKept hRead
    · cases hError
  error := by
    intro f f' e hSeen hRun
    rcases writeFile_cases hRun with
      ⟨hOk, _⟩ | ⟨_, step, _, rfl⟩
    · cases hOk
    · rw [← hSeen]
      exact seen?_congr
        (Directory.file?_leftover step (by decide))

theorem leads_setStack (stack : List Collection) :
    Leads (seen? view · = seen) (setStack stack)
      (fun _ => (seen? view · = seen)) (seen? view · = seen) := by
  apply Leads.bind (Q := fun _ => (seen? view · = seen))
  · constructor
    · intro f f' _ hSeen hRun
      rcases writeFile_cases hRun with
        ⟨_, rfl⟩ | ⟨e, step, hError, _⟩
      · rw [← hSeen]
        exact seen?_congr
          (Directory.file?_replaced_of_ne (by decide)
            (by decide))
      · cases hError
    · intro f f' e hSeen hRun
      rcases writeFile_cases hRun with
        ⟨hOk, _⟩ | ⟨_, step, _, rfl⟩
      · cases hOk
      · rw [← hSeen]
        exact seen?_congr
          (Directory.file?_leftover step (by decide))
  · intro _
    apply Leads.of_modify
    exact fun _ hSeen => hSeen

theorem leads_push (c : Collection) :
    Leads (seen? view · = seen) (push c)
      (fun _ => (seen? view · = seen)) (seen? view · = seen) := by
  apply Leads.bind Leads.of_get
  intro f
  exact (leads_setStack _).mono fun _ hState => hState.2

theorem leads_pop :
    Leads (seen? view · = seen) pop
      (fun _ => (seen? view · = seen)) (seen? view · = seen) := by
  apply Leads.bind Leads.of_get
  intro f
  apply Leads.bind
    ((leads_setStack f.stack.tail).mono
      fun _ hState => hState.2)
  intro _
  exact Leads.of_pure fun _ hSeen => hSeen

theorem shows (hKept : Collection.IsKept view) :
    Backend.Shows Folder view (seen? view) where
  load := by
    intro seen
    apply Leads.bind Leads.of_get
    intro f
    apply Leads.of_lift
    · rintro c hRead _ ⟨rfl, rfl⟩
      refine ⟨rfl, ?_⟩
      unfold seen?
      rw [hRead]
      rfl
    · exact fun _ hState => hState.2
  save := fun _ => leads_save hKept
  push := fun _ => leads_push
  pop := fun _ => leads_pop
  clear := fun _ => leads_setStack []
  resumes := by
    rintro f f' ⟨d, hSame, rfl | ⟨options, hOpened⟩⟩
    · exact seen?_congr hSame.databases
    · rcases eq_of_ofDirectory hOpened with ⟨rfl, _⟩
      exact seen?_congr hSame.databases

end Folder

------------------------------------------------------------
-- In Memory Or In A Directory
------------------------------------------------------------

namespace Depot

theorem leads_call
    {α : Type}
    {onMemory : Call Memory α}
    {onFolder : Call Folder α}
    {P E : Depot → Prop}
    {Q : α → Depot → Prop}
    (hMemory :
      Leads (fun m => P (memory m)) onMemory
        (fun a m => Q a (memory m))
        (fun m => E (memory m)))
    (hFolder :
      Leads (fun f => P (folder f)) onFolder
        (fun a f => Q a (folder f))
        (fun f => E (folder f))) :
    Leads P (call onMemory onFolder) Q E where
  ok := by
    intro b b' a hState hRun
    cases b with
    | memory m =>
        rw [run_call_memory, Prod.mk.injEq] at hRun
        rcases hRun with ⟨hAnswer, rfl⟩
        exact hMemory.ok hState (Prod.ext hAnswer rfl)
    | folder f =>
        rw [run_call_folder, Prod.mk.injEq] at hRun
        rcases hRun with ⟨hAnswer, rfl⟩
        exact hFolder.ok hState (Prod.ext hAnswer rfl)
  error := by
    intro b b' e hState hRun
    cases b with
    | memory m =>
        rw [run_call_memory, Prod.mk.injEq] at hRun
        rcases hRun with ⟨hAnswer, rfl⟩
        exact hMemory.error hState (Prod.ext hAnswer rfl)
    | folder f =>
        rw [run_call_folder, Prod.mk.injEq] at hRun
        rcases hRun with ⟨hAnswer, rfl⟩
        exact hFolder.error hState (Prod.ext hAnswer rfl)

variable {γ : Type}

/- What is seen of the collection that is loaded. -/
def seen?
    (view : Collection → γ) : Depot → Option γ
| memory m => m.seen? view
| folder f => f.seen? view

theorem seen?_eq
    (view : Collection → γ)
    (b : Depot) :
    b.seen? view = b.loaded?.map view := by
  cases b with
  | memory m => rfl
  | folder f => rfl

theorem shows
    {view : Collection → γ}
    (hKept : Collection.IsKept view) :
    Backend.Shows Depot view (seen? view) where
  load := fun seen =>
    leads_call ((Memory.shows view).load seen)
      ((Folder.shows hKept).load seen)
  save := fun seen c =>
    leads_call ((Memory.shows view).save seen c)
      ((Folder.shows hKept).save seen c)
  push := fun seen c =>
    leads_call ((Memory.shows view).push seen c)
      ((Folder.shows hKept).push seen c)
  pop := fun seen =>
    leads_call ((Memory.shows view).pop seen)
      ((Folder.shows hKept).pop seen)
  clear := fun seen =>
    leads_call ((Memory.shows view).clear seen)
      ((Folder.shows hKept).clear seen)
  resumes := by
    intro b b' hResumes
    cases b with
    | memory m =>
        cases b' with
        | memory m' =>
            exact (Memory.shows view).resumes hResumes
        | folder f' => cases hResumes
    | folder f =>
        cases b' with
        | memory m' => cases hResumes
        | folder f' =>
            exact (Folder.shows hKept).resumes hResumes

end Depot

------------------------------------------------------------
-- With Calls Out Of Order
------------------------------------------------------------

namespace Outage

variable {β : Type}

/- A call that is out of order fails where it began. -/
theorem leads_call
    {α : Type}
    {c : Call β α}
    {P E : β → Prop}
    {Q : α → β → Prop}
    (hCall : Leads P c Q E)
    (hRefused : ∀ b, P b → E b)
    (name : CallName) :
    Leads (fun o : Outage β => P o.backend) (call name c)
      (fun a o => Q a o.backend) (fun o => E o.backend) where
  ok := by
    intro o o' a hState hRun
    rw [run_call] at hRun
    split at hRun
    · cases hRun
    · rw [Prod.mk.injEq] at hRun
      rcases hRun with ⟨hAnswer, rfl⟩
      exact hCall.ok hState (Prod.ext hAnswer rfl)
  error := by
    intro o o' e hState hRun
    rw [run_call] at hRun
    split at hRun
    · cases hRun
      exact hRefused o.backend hState
    · rw [Prod.mk.injEq] at hRun
      rcases hRun with ⟨hAnswer, rfl⟩
      exact hCall.error hState (Prod.ext hAnswer rfl)

theorem shows
    [Backend β]
    [Backend.History β]
    {γ : Type}
    {view : Collection → γ}
    {seen? : β → Option γ}
    (hShows : Backend.Shows β view seen?) :
    Backend.Shows (Outage β) view
      (fun o => seen? o.backend) where
  load := fun seen =>
    leads_call (hShows.load seen) (fun _ h => h) .load
  save := fun seen c =>
    leads_call (hShows.save seen c) (fun _ h => h) .save
  push := fun seen c =>
    leads_call (hShows.push seen c) (fun _ h => h) .push
  pop := fun seen =>
    leads_call (hShows.pop seen) (fun _ h => h) .pop
  clear := fun seen =>
    leads_call (hShows.clear seen) (fun _ h => h) .clear
  resumes := by
    rintro o o' (hSame | hResumes)
    · rw [hSame]
    · exact hShows.resumes hResumes

end Outage

end Rowstore
