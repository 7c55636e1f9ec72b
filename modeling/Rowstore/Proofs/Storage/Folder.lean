import Rowstore.Proofs.Database.Document
import Rowstore.Proofs.Storage.Directory
import Rowstore.Proofs.Storage.History
import Rowstore.Storage.Folder

/-
  The backend in a directory.  A call writes one file or
  none, and what is read from a file that was written is what
  its document decodes to.

  So a property of collections that decoding keeps holds of
  all that the directory and the stack have, if it holds of
  all that was handed over.

  Main declarations:
    * `Folder.readFile_eq_ok_iff`
    * `Folder.run_writeFile`
    * `Folder.guards`
    * `Folder.keeps`
-/

------------------------------------------------------------
-- Reading And Writing Files
------------------------------------------------------------

namespace Rowstore

open Execution

namespace Folder

/- What was written is read, and decoded, in either layout. -/
theorem readFile_eq_ok_iff
    {α : Type}
    (decode : Json → Option α)
    (default : α)
    {name : String}
    {d : Directory}
    {options : StorageOptions}
    {j : Json}
    (hProper : j.Proper)
    (hFile : d.file? name = some (textOf options j))
    {a : α} :
    readFile decode default name d = .ok a ↔
      decode j = some a := by
  have hRead :
      Json.read? (textOf options j).toList = some j := by
    unfold textOf
    rw [String.toList_ofList]
    split
    · exact Json.read?_indented hProper
    · exact Json.read?_compact hProper
  have hText : (textOf options j).isEmpty = false := by
    by_contra hEmpty
    rw [Bool.not_eq_false, String.isEmpty_iff] at hEmpty
    rw [hEmpty] at hRead
    cases hRead
  simp only [readFile, hFile, hText, hRead, Option.bind_some,
    Bool.false_eq_true, if_false]
  cases decode j with
  | none => simp
  | some b => simp

theorem readFile_congr
    {α : Type}
    {decode : Json → Option α}
    {default : α}
    {name : String}
    {d d' : Directory}
    (hSame : d'.file? name = d.file? name) :
    readFile decode default name d' =
      readFile decode default name d := by
  unfold readFile
  rw [hSame]

/- Writing replaces a file of the directory, and nothing else. -/
theorem run_writeFile
    (name : String)
    (j : Json)
    (f : Folder) :
    (writeFile name j).run.run f =
      match f.directory.faultOf f.options.syncOnWrite name with
      | none =>
          (.ok (),
            { f with
              directory :=
                f.directory.replaced name
                  (textOf f.options j) })
      | some fault =>
          (.error (.io fault.detail),
            { f with
              directory :=
                f.directory.leftover name
                  (textOf f.options j) fault.step }) := by
  unfold writeFile
  simp only [run_bind, run_get, Directory.run_replace]
  cases f.directory.faultOf f.options.syncOnWrite name with
  | none => rfl
  | some fault => rfl

end Folder

end Rowstore

------------------------------------------------------------
-- What A Directory Has
------------------------------------------------------------

namespace Rowstore

open Execution

namespace Folder

/- Two directories have the same collection and the same snapshots. -/
structure SameData (d d' : Directory) : Prop where
  databases : d'.file? databasesFile = d.file? databasesFile
  snapshots : d'.file? snapshotsFile = d.file? snapshotsFile

theorem SameData.leftover
    {name text : String}
    (d : Directory)
    (step : WriteStep)
    (hDatabases : databasesFile ≠ Directory.temporary name)
    (hSnapshots : snapshotsFile ≠ Directory.temporary name) :
    SameData d (d.leftover name text step) where
  databases := Directory.file?_leftover step hDatabases
  snapshots := Directory.file?_leftover step hSnapshots

/-
  What is read from either file, and every snapshot held in
  memory, has a property.
-/
structure Safe
    (P : Collection → Prop)
    (f : Folder) : Prop where
  databases :
    ∀ c,
      readFile Collection.ofJson? .empty databasesFile
          f.directory = .ok c →
        P c
  snapshots :
    ∀ stack,
      readFile stackOfJson? [] snapshotsFile f.directory =
          .ok stack →
        ∀ c ∈ stack, P c
  stack : ∀ c ∈ f.stack, P c

variable {P : Collection → Prop} {f : Folder}

theorem Safe.imp
    {P' : Collection → Prop}
    (hWeaker : ∀ c, P c → P' c)
    (hSafe : Safe P f) :
    Safe P' f where
  databases := fun c hRead =>
    hWeaker c (hSafe.databases c hRead)
  snapshots := fun stack hRead c hMem =>
    hWeaker c (hSafe.snapshots stack hRead c hMem)
  stack := fun c hMem => hWeaker c (hSafe.stack c hMem)

theorem Safe.sameData
    (hSafe : Safe P f)
    {d : Directory}
    (hSame : SameData f.directory d) :
    Safe P { f with directory := d } where
  databases := by
    rw [readFile_congr hSame.databases]
    exact hSafe.databases
  snapshots := by
    rw [readFile_congr hSame.snapshots]
    exact hSafe.snapshots
  stack := hSafe.stack

end Folder

end Rowstore

------------------------------------------------------------
-- Calls
------------------------------------------------------------

namespace Rowstore

open Execution

namespace Folder

variable {P : Collection → Prop}

theorem proper_stackToJson (stack : List Collection) :
    (stackToJson stack).Proper := by
  apply Json.proper_array
  rw [List.forall_mem_map]
  exact fun c _ => c.proper_toJson

/- What is read from a written stack was put there. -/
theorem forall_mem_of_stackOfJson?
    (hRereads : Collection.Rereads P)
    {stack stack' : List Collection}
    (hStack : ∀ c ∈ stack, P c)
    (hRead : stackOfJson? (stackToJson stack) = some stack') :
    ∀ c ∈ stack', P c := by
  rcases Option.map_eq_some_iff.mp hRead with
    ⟨oldestFirst, hList, rfl⟩
  intro c' hMem
  rcases Json.exists_mem_of_forall₂
    (Json.forall₂_of_list? hList)
    (List.mem_reverse.mp hMem) with ⟨c, hOld, hDecoded⟩
  exact hRereads c c' hDecoded
    (hStack c (List.mem_reverse.mp hOld))

/- Only a replacement that succeeds has to be looked at. -/
theorem ensures_writeFile
    {name : String}
    {j : Json}
    (hDatabases : databasesFile ≠ Directory.temporary name)
    (hSnapshots : snapshotsFile ≠ Directory.temporary name)
    (hReplaced :
      ∀ f, Safe P f →
        Safe P
          { f with
            directory :=
              f.directory.replaced name
                (textOf f.options j) }) :
    Ensures (Safe P) (writeFile name j) (fun _ => True) := by
  intro f hSafe
  refine ⟨?_, fun _ _ => trivial⟩
  rw [run_writeFile]
  cases f.directory.faultOf f.options.syncOnWrite name with
  | none => exact hReplaced f hSafe
  | some fault =>
      exact hSafe.sameData
        (.leftover f.directory fault.step hDatabases
          hSnapshots)

theorem ensures_save
    (hRereads : Collection.Rereads P)
    {c : Collection}
    (hGiven : P c) :
    Ensures (Safe P) (save c) (fun _ => True) := by
  apply ensures_writeFile (by decide) (by decide)
  intro f hSafe
  refine
    { databases := ?_
      snapshots := ?_
      stack := hSafe.stack }
  · intro c' hRead
    have hDecoded :=
      (readFile_eq_ok_iff Collection.ofJson? .empty
        c.proper_toJson Directory.file?_replaced).mp hRead
    exact hRereads c c' hDecoded hGiven
  · rw [readFile_congr (Directory.file?_replaced_of_ne
      (by decide) (by decide))]
    exact hSafe.snapshots

theorem ensures_setStack
    (hRereads : Collection.Rereads P)
    {stack : List Collection}
    (hGiven : ∀ c ∈ stack, P c) :
    Ensures (Safe P) (setStack stack) (fun _ => True) := by
  have hWrite :
      Ensures (Safe P)
        (writeFile snapshotsFile (stackToJson stack))
        (fun _ => True) := by
    apply ensures_writeFile (by decide) (by decide)
    intro f hSafe
    refine
      { databases := ?_
        snapshots := ?_
        stack := hSafe.stack }
    · rw [readFile_congr (Directory.file?_replaced_of_ne
        (by decide) (by decide))]
      exact hSafe.databases
    · intro stack' hRead
      have hDecoded :=
        (readFile_eq_ok_iff stackOfJson? []
          (proper_stackToJson stack)
          Directory.file?_replaced).mp hRead
      exact forall_mem_of_stackOfJson? hRereads hGiven
        hDecoded
  apply Ensures.bind hWrite
  intro _ _
  apply Ensures.of_modify
  intro f hSafe
  exact
    { databases := hSafe.databases
      snapshots := hSafe.snapshots
      stack := hGiven }

theorem guards (hRereads : Collection.Rereads P) :
    Backend.Guards Folder P (Safe P) where
  load := by
    apply Ensures.bind Ensures.of_get
    intro f hSafe
    exact Ensures.of_lift hSafe.databases
  save := fun c hGiven => ensures_save hRereads hGiven
  push := by
    intro c hGiven
    apply Ensures.bind Ensures.of_get
    intro f hSafe
    apply ensures_setStack hRereads
    intro d hMem
    rcases mem_of_mem_pushWithin hMem with rfl | hMem
    · exact hGiven
    · exact hSafe.stack d hMem
  pop := by
    apply Ensures.bind Ensures.of_get
    intro f hSafe
    have hRest : ∀ c ∈ f.stack.tail, P c :=
      fun c hMem => hSafe.stack c (List.mem_of_mem_tail hMem)
    apply Ensures.bind (ensures_setStack hRereads hRest)
    intro _ _
    apply Ensures.of_pure
    intro c hFirst
    exact hSafe.stack c (List.mem_of_mem_head? hFirst)
  clear := ensures_setStack hRereads (List.forall_mem_nil P)

end Folder

end Rowstore

------------------------------------------------------------
-- Opening A Directory
------------------------------------------------------------

namespace Rowstore

namespace Folder

variable {P : Collection → Prop}

/-
  A directory begins without collections.  Faults of it come
  and go, and it may be opened again with other options, when
  its snapshots are read anew.
-/
instance : Backend.History Folder where
  Begins := fun f =>
    ∃ options d,
      ofDirectory options d = .ok f ∧
        d.file? databasesFile = none ∧
        d.file? snapshotsFile = none
  Resumes := fun f f' =>
    ∃ d,
      SameData f.directory d ∧
        (f' = { f with directory := d } ∨
          ∃ options, ofDirectory options d = .ok f')

/- What is opened has the snapshots that are read. -/
theorem eq_of_ofDirectory
    {options : StorageOptions}
    {d : Directory}
    {f : Folder}
    (hOpened : ofDirectory options d = .ok f) :
    f.directory = d ∧
      readFile stackOfJson? [] snapshotsFile d =
        .ok f.stack := by
  unfold ofDirectory at hOpened
  cases hRead : readFile stackOfJson? [] snapshotsFile d with
  | error e =>
      rw [hRead] at hOpened
      cases hOpened
  | ok stack =>
      rw [hRead] at hOpened
      cases hOpened
      exact ⟨rfl, rfl⟩

theorem readFile_of_missing
    {α : Type}
    (decode : Json → Option α)
    (default : α)
    {name : String}
    {d : Directory}
    (hMissing : d.file? name = none) :
    readFile decode default name d = .ok default := by
  unfold readFile
  rw [hMissing]

theorem keeps (hEmpty : P .empty) :
    Backend.Keeps Folder (Safe P) where
  begins := by
    rintro f ⟨options, d, hOpened, hDatabases, hSnapshots⟩
    rcases eq_of_ofDirectory hOpened with ⟨rfl, hStack⟩
    have hNone := readFile_of_missing stackOfJson? [] hSnapshots
    refine
      { databases := ?_
        snapshots := ?_
        stack := ?_ }
    · intro c hRead
      rw [readFile_of_missing Collection.ofJson? .empty
        hDatabases] at hRead
      cases hRead
      exact hEmpty
    · intro stack hRead
      rw [hNone] at hRead
      cases hRead
      exact List.forall_mem_nil P
    · rw [hNone] at hStack
      rw [← Except.ok.inj hStack]
      exact List.forall_mem_nil P
  resumes := by
    rintro f f' hSafe ⟨d, hSame, rfl | ⟨options, hOpened⟩⟩
    · exact hSafe.sameData hSame
    · rcases eq_of_ofDirectory hOpened with ⟨rfl, hStack⟩
      have hData := hSafe.sameData hSame
      exact
        { databases := hData.databases
          snapshots := hData.snapshots
          stack := hData.snapshots f'.stack hStack }

end Folder

end Rowstore
