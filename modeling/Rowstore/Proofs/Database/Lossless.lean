import Rowstore.Proofs.Calendar.Stamps
import Rowstore.Proofs.Database.Listing
import Rowstore.Proofs.Table.Lossless

/-
  Collections are read as they were written, in either
  layout.  What this takes is that amounts fit the words they
  are read into, that the moments of permission logs exist,
  and that numbers survive being written and read.

  Main declarations:
    * `Collection.Fits` and `Collection.NumbersSurvive`
    * `Collection.Survives` and
      `Collection.survives_of_fits`
    * `Collection.reads_back`
-/

------------------------------------------------------------
-- Permission Logs
------------------------------------------------------------

namespace Rowstore

open Json

theorem Moment.ofJson?_toJson
    {m : Moment}
    (hValid : m.IsValid) :
    Moment.ofJson? m.toJson = some m := by
  unfold Moment.ofJson? Moment.toJson
  rw [text?_ofText]
  simp only [Option.bind_eq_bind, Option.bind_some,
    String.toList_ofList]
  exact Calendar.readStamp_stampText hValid

theorem PermissionAction.word?_word (a : PermissionAction) :
    word? PermissionAction.words (.ofText a.word) = some a := by
  simp only [word?, ofText, unescape_escape]
  cases a with
  | grant => decide
  | revoke => decide

theorem Scope.word?_word (s : Scope) :
    word? Scope.words (.ofText s.word) = some s := by
  simp only [word?, ofText, unescape_escape]
  cases s with
  | table => decide
  | database => decide

namespace PermissionEvent

/- The fields of a written permission event. -/
theorem fields?_toJson (e : PermissionEvent) :
    fields? fieldNames e.toJson =
      some
        [some (.ofText e.action.word),
          some (.ofText e.privilege),
          some (.ofText e.scope.word), some (.ofText e.name),
          some (.ofText e.user), some e.time.toJson] := by
  unfold toJson
  rw [fields?_ofMembers]
  · simp [fieldNames, List.lookup_cons]
  · simp

theorem ofJson?_toJson
    {e : PermissionEvent}
    (hTime : e.time.IsValid) :
    ofJson? e.toJson = some e := by
  unfold ofJson?
  simp only [fields?_toJson, place_zero, place_succ,
    required?_some, text?_ofText, PermissionAction.word?_word,
    Scope.word?_word, Moment.ofJson?_toJson hTime,
    Option.bind_eq_bind, Option.bind_some, Option.pure_def]

end PermissionEvent

end Rowstore

------------------------------------------------------------
-- Databases
------------------------------------------------------------

namespace Rowstore

open Json

namespace Database

/- The moments of the permission log exist. -/
def TimesExist (d : Database) : Prop :=
  ∀ e ∈ d.permissions, e.time.IsValid

instance (d : Database) : Decidable d.TimesExist :=
  inferInstanceAs (Decidable (∀ e ∈ d.permissions, _))

/- All amounts in a database fit their words, and the moments of its log exist. -/
def Fits (d : Database) : Prop :=
  (∀ t ∈ d.tables, t.Fits) ∧ d.TimesExist

instance (d : Database) : Decidable d.Fits :=
  inferInstanceAs (Decidable (_ ∧ _))

/- All numbers in the tables of a database survive. -/
def NumbersSurvive (d : Database) : Prop :=
  ∀ t ∈ d.tables, t.NumbersSurvive

instance (d : Database) : Decidable d.NumbersSurvive :=
  inferInstanceAs (Decidable (∀ t ∈ d.tables, _))

theorem metaOfJson?_metaToJson
    {permissions : List PermissionEvent}
    (hTimes : ∀ e ∈ permissions, e.time.IsValid) :
    metaOfJson? (metaToJson permissions) =
      some permissions := by
  have hFields :
      fields? metaFieldNames (metaToJson permissions) =
        some
          [some (.array
            (permissions.map PermissionEvent.toJson))] := by
    unfold metaToJson
    rw [fields?_ofMembers]
    · simp [metaFieldNames, List.lookup_cons]
    · simp
  have hList :
      list? PermissionEvent.ofJson?
          (.array (permissions.map PermissionEvent.toJson)) =
        some permissions :=
    list?_array_map fun e hMem =>
      PermissionEvent.ofJson?_toJson (hTimes e hMem)
  unfold metaOfJson?
  simp only [hFields, place_zero, withDefault?_some, hList,
    Option.bind_eq_bind, Option.bind_some]

theorem ofJson?_toJson
    {d : Database}
    (hFits : d.Fits)
    (hNumbers : d.NumbersSurvive) :
    Database.ofJson? d.toJson = some d := by
  have hTables :
      list? Table.ofJson?
          (.array (d.tables.map Table.toJson)) =
        some d.tables :=
    list?_array_map fun t hMem =>
      Table.ofJson?_toJson (hFits.1 t hMem)
        (hNumbers t hMem)
  unfold Database.ofJson?
  simp only [fields?_toJson, place_zero, place_succ,
    required?_some, withDefault?_some, text?_ofText,
    DatabaseId.ofJson?_toJson, hTables, metaOfJson?_metaToJson hFits.2,
    Option.bind_eq_bind, Option.bind_some, Option.pure_def]

end Database

end Rowstore

------------------------------------------------------------
-- Collections
------------------------------------------------------------

namespace Rowstore

open Json

namespace Collection

/- All amounts in a collection fit their words, and the moments of its logs exist. -/
def Fits (s : Collection) : Prop :=
  ∀ d ∈ s.databases, d.Fits

instance (s : Collection) : Decidable s.Fits :=
  inferInstanceAs (Decidable (∀ d ∈ s.databases, _))

/- All numbers in a collection survive. -/
def NumbersSurvive (s : Collection) : Prop :=
  ∀ d ∈ s.databases, d.NumbersSurvive

instance (s : Collection) : Decidable s.NumbersSurvive :=
  inferInstanceAs (Decidable (∀ d ∈ s.databases, _))

/- The collection is read as it was written. -/
def Survives (s : Collection) : Prop :=
  Collection.ofJson? s.toJson = some s

instance (s : Collection) : Decidable s.Survives :=
  inferInstanceAs (Decidable (_ = _))

variable {s : Collection}

theorem survives_of_fits
    (hFits : s.Fits)
    (hNumbers : s.NumbersSurvive) :
    s.Survives := by
  have hDatabases :
      list? Database.ofJson?
          (.array (s.databases.map Database.toJson)) =
        some s.databases :=
    list?_array_map fun d hMem =>
      Database.ofJson?_toJson (hFits d hMem) (hNumbers d hMem)
  unfold Survives Collection.ofJson? Collection.toJson
  rw [hDatabases, Option.map_some]

/- A collection is read from its text as it was written, in either layout. -/
theorem reads_back
    (hFits : s.Fits)
    (hNumbers : s.NumbersSurvive) :
    (Json.read? s.toJson.compact).bind Collection.ofJson? =
        some s ∧
      (Json.read? s.toJson.indented).bind
          Collection.ofJson? =
        some s := by
  have hDecoded : Collection.ofJson? s.toJson = some s :=
    survives_of_fits hFits hNumbers
  rw [read?_compact s.proper_toJson,
    read?_indented s.proper_toJson]
  exact ⟨hDecoded, hDecoded⟩

/- Texts that look like other values, a leap second and a column with one size are kept. -/
theorem look_alikes_are_kept :
    let s : Collection :=
      ⟨[{ id := ⟨⟨7⟩⟩
          name := "d"
          tables :=
            [{ id := ⟨⟨11⟩⟩
               name := "t"
               columns :=
                 [{ id := ⟨1⟩
                    name := "a \"b\""
                    base := .text
                    declaredType := "CHAR(9)"
                    length := some 9
                    precision := none
                    scale := none
                    isPrimaryKey := true }]
               rows :=
                 [{ id := ⟨1⟩
                    cells := .ofList [(⟨1⟩, .text "5")] },
                  { id := ⟨3⟩
                    cells := .ofList [(⟨1⟩, .number 0.5)] },
                  { id := ⟨4⟩
                    cells := .ofList [(⟨1⟩, .text "null")] },
                  { id := ⟨5⟩
                    cells := .ofList [(⟨1⟩, .null)] }]
               counters := ⟨2, 6⟩ }]
          permissions :=
            [{ action := .revoke
               privilege := "ALL"
               scope := .database
               name := "d"
               user := "u"
               time :=
                 { date := { year := -1, month := 2, day := 28 }
                   hour := 23
                   minute := 59
                   second := 60
                   nano := 5000 } }] }]⟩
    s.Fits ∧ s.NumbersSurvive ∧
      (Json.read? s.toJson.compact).bind
          Collection.ofJson? =
        some s ∧
      (Json.read? s.toJson.indented).bind
          Collection.ofJson? =
        some s := by
  intro s
  have hFits : s.Fits := by decide +kernel
  have hNumbers : s.NumbersSurvive := by decide +kernel
  exact ⟨hFits, hNumbers, reads_back hFits hNumbers⟩

end Collection

end Rowstore
