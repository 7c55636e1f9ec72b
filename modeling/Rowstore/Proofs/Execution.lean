import Rowstore.Error

/-
  Equations for runs of computations that may fail and that
  keep what they did before failing.  Edits, work, calls of a
  backend and actions of a session are all of this kind.

  Main declarations:
    * `Execution.run_bind` and `Execution.run_bind_ok`
    * `Execution.run_lift`
    * `Execution.Reads` and `Execution.Reads.bind`
    * `Execution.Ensures` and `Execution.Ensures.bind`
    * `Execution.Leads` and `Execution.Leads.bind`
    * `Execution.Matches` and `Execution.Matches.bind`
    * `Execution.SameKind` and `Execution.SameKind.bind`
    * `Execution.Resembles` and `Execution.Resembles.bind`
-/

namespace Rowstore

namespace Execution

variable {σ α γ : Type}

/- A sequence runs its second part where its first part ended. -/
theorem run_bind
    (x : ExceptT Error (StateM σ) α)
    (f : α → ExceptT Error (StateM σ) γ)
    (s : σ) :
    (x >>= f).run.run s =
      match x.run.run s with
      | (.ok a, s') => (f a).run.run s'
      | (.error e, s') => (.error e, s') := by
  change
    (ExceptT.bindCont f (x.run.run s).1).run
      (x.run.run s).2 = _
  cases hRun : x.run.run s with
  | mk answer s' =>
      cases answer with
      | ok a => rfl
      | error e => rfl

/- A sequence succeeds only if its first part does, and then the second one. -/
theorem run_bind_ok
    {x : ExceptT Error (StateM σ) α}
    {f : α → ExceptT Error (StateM σ) γ}
    {s s'' : σ}
    {b : γ}
    (hRun : (x >>= f).run.run s = (.ok b, s'')) :
    ∃ a s',
      x.run.run s = (.ok a, s') ∧
        (f a).run.run s' = (.ok b, s'') := by
  rw [run_bind] at hRun
  rcases hFirst : x.run.run s with ⟨e | a, s'⟩
  · rw [hFirst] at hRun
    cases hRun
  · rw [hFirst] at hRun
    exact ⟨a, s', rfl, hRun⟩

/- To give an answer another form changes nothing else. -/
theorem run_bind_pure
    (x : ExceptT Error (StateM σ) α)
    (f : α → γ)
    (s : σ) :
    (x >>= fun a => pure (f a) :
      ExceptT Error (StateM σ) γ).run.run s =
      ((x.run.run s).1.map f, (x.run.run s).2) := by
  rw [run_bind]
  rcases x.run.run s with ⟨e | a, s'⟩
  · rfl
  · rfl

theorem run_pure
    (a : α)
    (s : σ) :
    (pure a : ExceptT Error (StateM σ) α).run.run s =
      (.ok a, s) := rfl

theorem run_throw
    (e : Error)
    (s : σ) :
    (throw e : ExceptT Error (StateM σ) α).run.run s =
      (.error e, s) := rfl

theorem run_get
    (s : σ) :
    (get : ExceptT Error (StateM σ) σ).run.run s =
      (.ok s, s) := rfl

theorem run_set
    (t s : σ) :
    (set t : ExceptT Error (StateM σ) PUnit).run.run s =
      (.ok ⟨⟩, t) := rfl

theorem run_modify
    (f : σ → σ)
    (s : σ) :
    (modify f : ExceptT Error (StateM σ) PUnit).run.run s =
      (.ok ⟨⟩, f s) := rfl

/- An answer that is there already leaves the state as it is. -/
theorem run_lift
    (answer : Except Error α)
    (s : σ) :
    (liftM answer :
      ExceptT Error (StateM σ) α).run.run s =
      (answer, s) := rfl

------------------------------------------------------------
-- Computations That Only Read
------------------------------------------------------------

/- The computation leaves every state as it is. -/
def Reads (x : ExceptT Error (StateM σ) α) : Prop :=
  ∀ s, (x.run.run s).2 = s

namespace Reads

theorem of_pure (a : α) :
    Reads (pure a : ExceptT Error (StateM σ) α) := by
  intro s
  rfl

theorem of_get :
    Reads (get : ExceptT Error (StateM σ) σ) := by
  intro s
  rfl

theorem of_lift (answer : Except Error α) :
    Reads (liftM answer : ExceptT Error (StateM σ) α) := by
  intro s
  rfl

theorem eq_of_run
    {x : ExceptT Error (StateM σ) α}
    (hReads : Reads x)
    {s s' : σ}
    {answer : Except Error α}
    (hRun : x.run.run s = (answer, s')) :
    s' = s := by
  have hSame := hReads s
  rw [hRun] at hSame
  exact hSame

/- A sequence only reads if both of its parts do. -/
theorem bind
    {x : ExceptT Error (StateM σ) α}
    {f : α → ExceptT Error (StateM σ) γ}
    (hFirst : Reads x)
    (hSecond : ∀ a, Reads (f a)) :
    Reads (x >>= f) := by
  intro s
  have hState := hFirst s
  rw [run_bind]
  cases hRun : x.run.run s with
  | mk answer s' =>
      rw [hRun] at hState
      cases answer with
      | ok a =>
          calc
            ((f a).run.run s').2 = s' := hSecond a s'
            _ = s := hState
      | error e => exact hState

end Reads

------------------------------------------------------------
-- Computations That Keep A Property
------------------------------------------------------------

/-
  From states with a property the computation ends in such
  states, whether it fails or not, and what it answers has a
  property of its own.
-/
def Ensures
    (I : σ → Prop)
    (x : ExceptT Error (StateM σ) α)
    (Q : α → Prop) : Prop :=
  ∀ s, I s →
    I (x.run.run s).2 ∧
      ∀ a, (x.run.run s).1 = .ok a → Q a

namespace Ensures

variable {I : σ → Prop} {Q : α → Prop} {R : γ → Prop}

theorem of_pure
    {a : α}
    (hAnswer : Q a) :
    Ensures I (pure a : ExceptT Error (StateM σ) α) Q := by
  intro s hState
  refine ⟨hState, ?_⟩
  intro b hOk
  cases hOk
  exact hAnswer

theorem of_throw (e : Error) :
    Ensures I
      (throw e : ExceptT Error (StateM σ) α) Q := by
  intro s hState
  refine ⟨hState, ?_⟩
  intro b hOk
  cases hOk

theorem of_lift
    {answer : Except Error α}
    (hAnswer : ∀ a, answer = .ok a → Q a) :
    Ensures I
      (liftM answer : ExceptT Error (StateM σ) α) Q :=
  fun _ hState => ⟨hState, hAnswer⟩

theorem of_get :
    Ensures I (get : ExceptT Error (StateM σ) σ) I := by
  intro s hState
  refine ⟨hState, ?_⟩
  intro t hOk
  cases hOk
  exact hState

theorem of_set
    {t : σ}
    (hNew : I t) :
    Ensures I
      (set t : ExceptT Error (StateM σ) PUnit)
      (fun _ => True) :=
  fun _ _ => ⟨hNew, fun _ _ => trivial⟩

theorem of_modify
    {f : σ → σ}
    (hKeeps : ∀ s, I s → I (f s)) :
    Ensures I
      (modify f : ExceptT Error (StateM σ) PUnit)
      (fun _ => True) :=
  fun s hState => ⟨hKeeps s hState, fun _ _ => trivial⟩

/- The second part of a sequence may use what the first one answers. -/
theorem bind
    {x : ExceptT Error (StateM σ) α}
    {f : α → ExceptT Error (StateM σ) γ}
    (hFirst : Ensures I x Q)
    (hSecond : ∀ a, Q a → Ensures I (f a) R) :
    Ensures I (x >>= f) R := by
  intro s hState
  rcases hFirst s hState with ⟨hMiddle, hAnswer⟩
  rw [run_bind]
  rcases hRun : x.run.run s with ⟨e | a, s'⟩
  · rw [hRun] at hMiddle
    refine ⟨hMiddle, ?_⟩
    intro b hOk
    cases hOk
  · rw [hRun] at hMiddle hAnswer
    exact hSecond a (hAnswer a rfl) s' hMiddle

end Ensures

------------------------------------------------------------
-- Computations That Lead Somewhere
------------------------------------------------------------

/-
  From states with one property the computation ends in states
  with another one.  Which one depends on the answer, or is
  that of a failure.
-/
structure Leads
    (P : σ → Prop)
    (x : ExceptT Error (StateM σ) α)
    (Q : α → σ → Prop)
    (E : σ → Prop) : Prop where
  ok :
    ∀ {s s' : σ} {a : α},
      P s → x.run.run s = (.ok a, s') → Q a s'
  error :
    ∀ {s s' : σ} {e : Error},
      P s → x.run.run s = (.error e, s') → E s'

namespace Leads

variable {P : σ → Prop} {Q : α → σ → Prop} {E : σ → Prop}

theorem of_pure
    {a : α}
    (hEnds : ∀ s, P s → Q a s) :
    Leads P (pure a : ExceptT Error (StateM σ) α) Q E where
  ok := by
    rintro s _ _ hState ⟨⟩
    exact hEnds s hState
  error := by
    rintro _ _ _ _ ⟨⟩

theorem of_throw
    (e : Error)
    (hFails : ∀ s, P s → E s) :
    Leads P (throw e : ExceptT Error (StateM σ) α) Q E where
  ok := by
    rintro _ _ _ _ ⟨⟩
  error := by
    rintro s _ _ hState ⟨⟩
    exact hFails s hState

theorem of_lift
    {answer : Except Error α}
    (hEnds : ∀ a, answer = .ok a → ∀ s, P s → Q a s)
    (hFails : ∀ s, P s → E s) :
    Leads P
      (liftM answer : ExceptT Error (StateM σ) α) Q E where
  ok := by
    rintro s _ a hState hRun
    rw [run_lift, Prod.mk.injEq] at hRun
    rcases hRun with ⟨hAnswer, rfl⟩
    exact hEnds a hAnswer s hState
  error := by
    rintro s _ e hState hRun
    rw [run_lift, Prod.mk.injEq] at hRun
    rcases hRun with ⟨_, rfl⟩
    exact hFails s hState

theorem of_get :
    Leads P (get : ExceptT Error (StateM σ) σ)
      (fun t s => t = s ∧ P s) E where
  ok := by
    rintro s _ _ hState ⟨⟩
    exact ⟨rfl, hState⟩
  error := by
    rintro _ _ _ _ ⟨⟩

theorem of_set
    {t : σ}
    {Q : PUnit → σ → Prop}
    (hEnds : ∀ s, P s → Q ⟨⟩ t) :
    Leads P
      (set t : ExceptT Error (StateM σ) PUnit) Q E where
  ok := by
    rintro s _ _ hState ⟨⟩
    exact hEnds s hState
  error := by
    rintro _ _ _ _ ⟨⟩

theorem of_modify
    {f : σ → σ}
    {Q : PUnit → σ → Prop}
    (hEnds : ∀ s, P s → Q ⟨⟩ (f s)) :
    Leads P
      (modify f : ExceptT Error (StateM σ) PUnit) Q E where
  ok := by
    rintro s _ _ hState ⟨⟩
    exact hEnds s hState
  error := by
    rintro _ _ _ _ ⟨⟩

theorem mono
    {P' : σ → Prop}
    {x : ExceptT Error (StateM σ) α}
    (hLeads : Leads P x Q E)
    (hWeaker : ∀ s, P' s → P s) :
    Leads P' x Q E where
  ok := by
    intro s _ _ hState hRun
    exact hLeads.ok (hWeaker s hState) hRun
  error := by
    intro s _ _ hState hRun
    exact hLeads.error (hWeaker s hState) hRun

theorem imp
    {Q' : α → σ → Prop}
    {E' : σ → Prop}
    {x : ExceptT Error (StateM σ) α}
    (hLeads : Leads P x Q E)
    (hEnds : ∀ a s, Q a s → Q' a s)
    (hFails : ∀ s, E s → E' s) :
    Leads P x Q' E' where
  ok := by
    intro _ s' a hState hRun
    exact hEnds a s' (hLeads.ok hState hRun)
  error := by
    intro _ s' _ hState hRun
    exact hFails s' (hLeads.error hState hRun)

/- What all states of the beginning imply may be assumed. -/
theorem assuming
    {p : Prop}
    {x : ExceptT Error (StateM σ) α}
    (hFact : ∀ s, P s → p)
    (hLeads : p → Leads P x Q E) :
    Leads P x Q E where
  ok := by
    intro s _ _ hState hRun
    exact (hLeads (hFact s hState)).ok hState hRun
  error := by
    intro s _ _ hState hRun
    exact (hLeads (hFact s hState)).error hState hRun

/- A computation that leads back to a property keeps it. -/
theorem keeps
    {x : ExceptT Error (StateM σ) α}
    (hLeads : Leads P x (fun _ => P) P)
    {s : σ}
    (hState : P s) :
    P (x.run.run s).2 := by
  rcases hRun : x.run.run s with ⟨e | a, s'⟩
  · exact hLeads.error hState hRun
  · exact hLeads.ok hState hRun

/- A computation that only reads leads to where it began. -/
theorem of_reads
    {x : ExceptT Error (StateM σ) α}
    (hReads : Reads x)
    (hFails : ∀ s, P s → E s) :
    Leads P x (fun _ => P) E where
  ok := by
    intro _ _ _ hState hRun
    rw [hReads.eq_of_run hRun]
    exact hState
  error := by
    intro s _ _ hState hRun
    rw [hReads.eq_of_run hRun]
    exact hFails s hState

/- The second part of a sequence begins where the first one leads. -/
theorem bind
    {x : ExceptT Error (StateM σ) α}
    {f : α → ExceptT Error (StateM σ) γ}
    {R : γ → σ → Prop}
    (hFirst : Leads P x Q E)
    (hSecond : ∀ a, Leads (Q a) (f a) R E) :
    Leads P (x >>= f) R E where
  ok := by
    intro s s'' b hState hRun
    rcases run_bind_ok hRun with ⟨a, s', hLeft, hRight⟩
    exact (hSecond a).ok (hFirst.ok hState hLeft) hRight
  error := by
    intro s s'' e hState hRun
    rw [run_bind] at hRun
    rcases hLeft : x.run.run s with ⟨e' | a, s'⟩
    · rw [hLeft] at hRun
      cases hRun
      exact hFirst.error hState hLeft
    · rw [hLeft] at hRun
      exact
        (hSecond a).error (hFirst.ok hState hLeft) hRun

end Leads

------------------------------------------------------------
-- Computations That Match
------------------------------------------------------------

/- Both answers are related values, or the same failure. -/
inductive SameAnswer
    (Q : α → γ → Prop) :
    Except Error α → Except Error γ → Prop where
| ok
    {a : α}
    {b : γ}
    (hValues : Q a b) :
    SameAnswer Q (.ok a) (.ok b)
| error
    (e : Error) :
    SameAnswer Q (.error e) (.error e)

theorem SameAnswer.refl (x : Except Error α) :
    SameAnswer (· = ·) x x := by
  cases x with
  | ok a => exact .ok rfl
  | error e => exact .error e

theorem SameAnswer.imp
    {Q Q' : α → γ → Prop}
    (hWeaker : ∀ a b, Q a b → Q' a b)
    {x : Except Error α}
    {y : Except Error γ}
    (hSame : SameAnswer Q x y) :
    SameAnswer Q' x y := by
  cases hSame with
  | ok hValues => exact .ok (hWeaker _ _ hValues)
  | error e => exact .error e

theorem SameAnswer.eq
    {x y : Except Error α}
    (hSame : SameAnswer (· = ·) x y) :
    x = y := by
  cases hSame with
  | ok hValues => rw [hValues]
  | error e => rfl

variable {τ : Type}

/-
  From states that are related in one way both computations
  end in states that are related in another way, and they
  have the same answer.
-/
def Matches
    (R S : σ → τ → Prop)
    (x : ExceptT Error (StateM σ) α)
    (y : ExceptT Error (StateM τ) γ)
    (Q : α → γ → Prop) : Prop :=
  ∀ s t, R s t →
    S (x.run.run s).2 (y.run.run t).2 ∧
      SameAnswer Q (x.run.run s).1 (y.run.run t).1

namespace Matches

variable {R S : σ → τ → Prop} {Q : α → γ → Prop}

theorem of_pure
    {a : α}
    {b : γ}
    (hValues : Q a b) :
    Matches R R (pure a) (pure b) Q :=
  fun _ _ hStates => ⟨hStates, .ok hValues⟩

theorem of_throw (e : Error) :
    Matches R R (throw e) (throw e) Q :=
  fun _ _ hStates => ⟨hStates, .error e⟩

theorem of_lift
    {x : Except Error α}
    {y : Except Error γ}
    (hSame : SameAnswer Q x y) :
    Matches R R (liftM x) (liftM y) Q :=
  fun _ _ hStates => ⟨hStates, hSame⟩

theorem of_get : Matches R R get get R :=
  fun _ _ hStates => ⟨hStates, .ok hStates⟩

theorem of_modify
    {f : σ → σ}
    {g : τ → τ}
    (hEnds : ∀ s t, R s t → S (f s) (g t)) :
    Matches R S (modify f) (modify g) (fun _ _ => True) :=
  fun s t hStates => ⟨hEnds s t hStates, .ok trivial⟩

theorem mono
    {R' : σ → τ → Prop}
    {x : ExceptT Error (StateM σ) α}
    {y : ExceptT Error (StateM τ) γ}
    (hMatches : Matches R S x y Q)
    (hWeaker : ∀ s t, R' s t → R s t) :
    Matches R' S x y Q :=
  fun s t hStates => hMatches s t (hWeaker s t hStates)

theorem imp
    {Q' : α → γ → Prop}
    {x : ExceptT Error (StateM σ) α}
    {y : ExceptT Error (StateM τ) γ}
    (hMatches : Matches R S x y Q)
    (hWeaker : ∀ a b, Q a b → Q' a b) :
    Matches R S x y Q' := by
  intro s t hStates
  rcases hMatches s t hStates with ⟨hEnd, hSame⟩
  exact ⟨hEnd, hSame.imp hWeaker⟩

/- The second parts of sequences may use what the first ones answer. -/
theorem bind
    {α' γ' : Type}
    {P : α' → γ' → Prop}
    {x : ExceptT Error (StateM σ) α}
    {y : ExceptT Error (StateM τ) γ}
    {f : α → ExceptT Error (StateM σ) α'}
    {g : γ → ExceptT Error (StateM τ) γ'}
    (hFirst : Matches R S x y Q)
    (hSecond : ∀ a b, Q a b → Matches S S (f a) (g b) P) :
    Matches R S (x >>= f) (y >>= g) P := by
  intro s t hStates
  rcases hFirst s t hStates with ⟨hMiddle, hSame⟩
  rw [run_bind, run_bind]
  rcases hLeft : x.run.run s with ⟨answer, s'⟩
  rcases hRight : y.run.run t with ⟨answer', t'⟩
  rw [hLeft, hRight] at hMiddle hSame
  cases hSame with
  | ok hValues => exact hSecond _ _ hValues s' t' hMiddle
  | error e => exact ⟨hMiddle, .error e⟩

/- Computations match if they do so with fixed answers after them. -/
theorem of_bind_pure
    {α' γ' : Type}
    {P : α' → γ' → Prop}
    {x : ExceptT Error (StateM σ) α}
    {y : ExceptT Error (StateM τ) γ}
    {a : α'}
    {b : γ'}
    (hMatches :
      Matches R S (x >>= fun _ => pure a)
        (y >>= fun _ => pure b) P) :
    Matches R S x y (fun _ _ => True) := by
  intro s t hStates
  have hEnd := hMatches s t hStates
  rw [run_bind, run_bind] at hEnd
  rcases hLeft : x.run.run s with ⟨e | c, s'⟩
  · rcases hRight : y.run.run t with ⟨e' | d, t'⟩
    · rw [hLeft, hRight] at hEnd
      rcases hEnd with ⟨hStates', hSame⟩
      cases hSame with
      | error e => exact ⟨hStates', .error e⟩
    · rw [hLeft, hRight] at hEnd
      cases hEnd.2
  · rcases hRight : y.run.run t with ⟨e' | d, t'⟩
    · rw [hLeft, hRight] at hEnd
      cases hEnd.2
    · rw [hLeft, hRight] at hEnd
      exact ⟨hEnd.1, .ok trivial⟩

end Matches

------------------------------------------------------------
-- Failures Of One Kind
------------------------------------------------------------

/- Both answers are related values, or failures of the same kind. -/
inductive SameKind
    (Q : α → γ → Prop) :
    Except Error α → Except Error γ → Prop where
| ok
    {a : α}
    {b : γ}
    (hValues : Q a b) :
    SameKind Q (.ok a) (.ok b)
| error
    {e e' : Error}
    (hKind : e.kindName = e'.kindName) :
    SameKind Q (.error e) (.error e')

namespace SameKind

variable {Q : α → γ → Prop}

theorem refl
    {R : α → α → Prop}
    (hRelated : ∀ a, R a a)
    (x : Except Error α) :
    SameKind R x x := by
  cases x with
  | ok a => exact .ok (hRelated a)
  | error e => exact .error rfl

/- Two answers that both resemble a third one resemble each other. -/
theorem join
    {α' : Type}
    {P : α' → γ → Prop}
    {x : Except Error α}
    {x' : Except Error α'}
    {y : Except Error γ}
    (hFirst : SameKind Q x y)
    (hSecond : SameKind P x' y) :
    SameKind (fun a a' => ∃ b, Q a b ∧ P a' b) x x' := by
  cases hFirst with
  | ok hValues =>
      cases hSecond with
      | ok hOthers => exact .ok ⟨_, hValues, hOthers⟩
  | error hKind =>
      cases hSecond with
      | error hOther => exact .error (hKind.trans hOther.symm)

theorem bind
    {α' γ' : Type}
    {P : α' → γ' → Prop}
    {x : Except Error α}
    {y : Except Error γ}
    {f : α → Except Error α'}
    {g : γ → Except Error γ'}
    (hFirst : SameKind Q x y)
    (hSecond : ∀ a b, Q a b → SameKind P (f a) (g b)) :
    SameKind P (x >>= f) (y >>= g) := by
  cases hFirst with
  | ok hValues => exact hSecond _ _ hValues
  | error hKind => exact .error hKind

theorem map
    {α' γ' : Type}
    {P : α' → γ' → Prop}
    {x : Except Error α}
    {y : Except Error γ}
    {f : α → α'}
    {g : γ → γ'}
    (hSame : SameKind Q x y)
    (hValues : ∀ a b, Q a b → P (f a) (g b)) :
    SameKind P (x.map f) (y.map g) := by
  cases hSame with
  | ok hBoth => exact .ok (hValues _ _ hBoth)
  | error hKind => exact .error hKind

/- Items that agree in what the answers depend on, one after the other. -/
theorem mapM
    {α' κ : Type}
    {key : α' → κ}
    {f : α' → Except Error α}
    (hItems :
      ∀ a b, key a = key b → SameKind (· = ·) (f a) (f b))
    {l l' : List α'}
    (hKeys : l.map key = l'.map key) :
    SameKind (· = ·) (l.mapM f) (l'.mapM f) := by
  induction l generalizing l' with
  | nil =>
      rw [List.map_nil, eq_comm, List.map_eq_nil_iff] at hKeys
      rw [hKeys]
      exact .ok rfl
  | cons a l ih =>
      cases l' with
      | nil => cases hKeys
      | cons b l' =>
          rw [List.map_cons, List.map_cons,
            List.cons.injEq] at hKeys
          rw [List.mapM_cons, List.mapM_cons]
          apply (hItems a b hKeys.1).bind
          rintro first _ rfl
          apply (ih hKeys.2).bind
          rintro rest _ rfl
          exact .ok rfl

end SameKind

/-
  From each state both computations end in the same state, and
  their answers are related, or failures of the same kind.
-/
def Resembles
    (Q : α → γ → Prop)
    (x : ExceptT Error (StateM σ) α)
    (y : ExceptT Error (StateM σ) γ) : Prop :=
  ∀ s,
    (x.run.run s).2 = (y.run.run s).2 ∧
      SameKind Q (x.run.run s).1 (y.run.run s).1

namespace Resembles

variable {Q : α → γ → Prop}

/- Both computations run to the same state. -/
theorem runs
    {x : ExceptT Error (StateM σ) α}
    {y : ExceptT Error (StateM σ) γ}
    (hBoth : Resembles Q x y)
    (s : σ) :
    ∃ answer answer' s',
      x.run.run s = (answer, s') ∧
        y.run.run s = (answer', s') ∧
        SameKind Q answer answer' := by
  rcases hBoth s with ⟨hEnd, hAnswers⟩
  rcases hLeft : x.run.run s with ⟨answer, s'⟩
  rcases hRight : y.run.run s with ⟨answer', t⟩
  rw [hLeft, hRight] at hEnd hAnswers
  cases hEnd
  exact ⟨answer, answer', s', rfl, rfl, hAnswers⟩

theorem refl
    {R : α → α → Prop}
    (hRelated : ∀ a, R a a)
    (x : ExceptT Error (StateM σ) α) :
    Resembles R x x :=
  fun _ => ⟨rfl, .refl hRelated _⟩

theorem of_lift
    {x : Except Error α}
    {y : Except Error γ}
    (hSame : SameKind Q x y) :
    Resembles Q
      (liftM x : ExceptT Error (StateM σ) α)
      (liftM y : ExceptT Error (StateM σ) γ) :=
  fun _ => ⟨rfl, hSame⟩

theorem of_pure
    {a : α}
    {b : γ}
    (hValues : Q a b) :
    Resembles Q
      (pure a : ExceptT Error (StateM σ) α)
      (pure b : ExceptT Error (StateM σ) γ) :=
  fun _ => ⟨rfl, .ok hValues⟩

theorem of_throw
    {e e' : Error}
    (hKind : e.kindName = e'.kindName) :
    Resembles Q
      (throw e : ExceptT Error (StateM σ) α)
      (throw e' : ExceptT Error (StateM σ) γ) :=
  fun _ => ⟨rfl, .error hKind⟩

theorem bind
    {α' γ' : Type}
    {P : α' → γ' → Prop}
    {x : ExceptT Error (StateM σ) α}
    {y : ExceptT Error (StateM σ) γ}
    {f : α → ExceptT Error (StateM σ) α'}
    {g : γ → ExceptT Error (StateM σ) γ'}
    (hFirst : Resembles Q x y)
    (hSecond : ∀ a b, Q a b → Resembles P (f a) (g b)) :
    Resembles P (x >>= f) (y >>= g) := by
  intro s
  rcases hFirst.runs s with
    ⟨answer, answer', s', hLeft, hRight, hSame⟩
  rw [run_bind, run_bind, hLeft, hRight]
  cases hSame with
  | ok hValues => exact hSecond _ _ hValues s'
  | error hKind => exact ⟨rfl, .error hKind⟩

end Resembles

end Execution

end Rowstore
