import Mathlib.Tactic.Common

/-!
# Programs that change a state and may fault

A program runs on a state and ends either with a value or with a fault; the
state it has reached survives a fault.  `Ensures` relates a precondition, a
postcondition for normal ends and a condition for faulting ends, and its rules
follow the constructors of programs.
-/

namespace SharpEmu

abbrev Faulting (Fault State : Type) := ExceptT Fault (StateM State)

namespace Faulting

variable {Fault State Value Result : Type}

/-- The end of a program's run. -/
def outcome (program : Faulting Fault State Value) (state : State) : Except Fault Value × State :=
  program state

@[simp]
theorem outcome_pure (value : Value) (state : State) :
    outcome (pure value : Faulting Fault State Value) state = (.ok value, state) := rfl

@[simp]
theorem outcome_throw (fault : Fault) (state : State) :
    outcome (throw fault : Faulting Fault State Value) state = (.error fault, state) := rfl

@[simp]
theorem outcome_get (state : State) : outcome (get : Faulting Fault State State) state =
      (.ok state, state) := rfl

@[simp]
theorem outcome_modifyGet (change : State → Value × State) (state : State) :
    outcome (modifyGet change : Faulting Fault State Value) state =
      (.ok (change state).1, (change state).2) := rfl

@[simp]
theorem outcome_modify (change : State → State) (state : State) :
    outcome (modify change : Faulting Fault State PUnit) state =
      (.ok PUnit.unit, change state) := rfl

theorem outcome_bind (program : Faulting Fault State Value)
    (next : Value → Faulting Fault State Result) (state : State) :
    outcome (program >>= next) state =
      match program.outcome state with
      | (.ok value, after) => (next value).outcome after
      | (.error fault, after) => (.error fault, after) := by
  change (match program state with | (value, after) => ExceptT.bindCont next value after) = _
  unfold outcome
  rcases program state with ⟨fault | value, after⟩ <;> rfl

theorem state_outcome_answering (program : Faulting Fault State Value)
    (answer : Result) (state : State) :
    (outcome (program >>= fun _ => pure answer) state).2 = (program.outcome state).2 := by
  rw [outcome_bind]
  rcases program.outcome state with ⟨fault | value, after⟩ <;> rfl

theorem outcome_tryCatch (program : Faulting Fault State Value)
    (handler : Fault → Faulting Fault State Value) (state : State) :
    outcome (tryCatch program handler) state =
      match program.outcome state with
      | (.ok value, after) => (.ok value, after)
      | (.error fault, after) => (handler fault).outcome after := by
  unfold outcome
  change (match program state with
    | (ended, after) => (match ended with
      | Except.ok value =>
        (pure (Except.ok value) : StateM State (Except Fault Value))
      | Except.error fault => handler fault) after) = _
  rcases program state with ⟨fault | value, after⟩ <;> rfl

def Ensures (pre : State → Prop) (program : Faulting Fault State Value)
    (post : Value → State → Prop) (onFault : State → Prop) : Prop :=
  ∀ state, pre state → (∀ value after, program.outcome state = (.ok value, after) →
      post value after) ∧
    ∀ fault after, program.outcome state = (.error fault, after) → onFault after

section Rules

variable {pre : State → Prop} {onFault : State → Prop}

variable {post : Value → State → Prop}

theorem ensures_pure {value : Value} (holds : ∀ state, pre state → post value state) :
    Ensures pre (pure value : Faulting Fault State Value) post onFault := by
  intro state isPre
  constructor
  · rintro _ _ ⟨⟩
    exact holds state isPre
  · rintro _ _ ⟨⟩

variable {fault : Fault}

theorem ensures_throw (holds : ∀ state, pre state → onFault state) :
    Ensures pre (throw fault : Faulting Fault State Value) post onFault := by
  intro state isPre
  constructor
  · rintro _ _ ⟨⟩
  · rintro _ _ ⟨⟩
    exact holds state isPre

theorem ensures_modifyGet {change : State → Value × State}
    (holds : ∀ state, pre state → post (change state).1 (change state).2) :
    Ensures pre (modifyGet change : Faulting Fault State Value) post
      onFault := by
  intro state isPre
  constructor
  · rintro _ _ ⟨⟩
    exact holds state isPre
  · rintro _ _ ⟨⟩

theorem ensures_get {post : State → State → Prop} (holds : ∀ state, pre state → post state state) :
    Ensures pre (get : Faulting Fault State State) post onFault := by
  intro state isPre
  constructor
  · rintro _ _ ⟨⟩
    exact holds state isPre
  · rintro _ _ ⟨⟩

variable {change : State → State}

theorem ensures_modify {post : PUnit → State → Prop}
    (holds : ∀ state, pre state → post PUnit.unit (change state)) :
    Ensures pre (modify change : Faulting Fault State PUnit) post onFault :=
  ensures_modifyGet holds

variable {program : Faulting Fault State Value} {next : Value → Faulting Fault State Result}

theorem Ensures.bind {middle : Value → State → Prop} {post : Result → State → Prop}
    (first : Ensures pre program middle onFault)
    (rest : ∀ value, Ensures (middle value) (next value) post onFault) :
    Ensures pre (program >>= next) post onFault := by
  intro state isPre
  obtain ⟨firstValue, firstFault⟩ := first state isPre
  rw [outcome_bind]
  rcases ended : program.outcome state with ⟨fault | value, after⟩
  · constructor
    · rintro _ _ ⟨⟩
    · rintro _ _ ⟨⟩
      exact firstFault _ _ ended
  · exact rest value after (firstValue _ _ ended)

theorem ensures_get_bind {next : State → Faulting Fault State Result} {post : Result → State → Prop}
    (rest : ∀ value, pre value → Ensures (fun state => state = value) (next value) post onFault) :
    Ensures pre (get >>= next) post onFault :=
  fun state isPre => rest state isPre state rfl

theorem ensures_modify_bind {start : State} {next : PUnit → Faulting Fault State Result}
    {post : Result → State → Prop}
    (rest : Ensures (fun state => state = change start) (next PUnit.unit) post onFault) :
    Ensures (fun state => state = start) (modify change >>= next) post
      onFault := by
  rintro _ rfl
  exact rest _ rfl

/-- A program that takes something back and fails. -/
theorem ensures_modify_throw {post : Result → State → Prop}
    (holds : ∀ state, pre state → onFault (change state)) :
    Ensures pre (modify change >>= fun _ =>
        (throw fault : Faulting Fault State Result)) post onFault := by
  intro state isPre
  constructor
  · rintro _ _ ⟨⟩
  · rintro _ _ ⟨⟩
    exact holds state isPre

theorem Ensures.answering {answer : Result} {post : Result → State → Prop}
    (first : Ensures pre program (fun _ => post answer) onFault) :
    Ensures pre (program >>= fun _ => pure answer) post onFault :=
  first.bind fun _ => ensures_pure fun _ holds => holds

variable {handler : Fault → Faulting Fault State Value}

theorem Ensures.tryCatch {caught : State → Prop} (body : Ensures pre program post caught)
    (handled : ∀ fault, Ensures caught (handler fault) post onFault) :
    Ensures pre (tryCatch program handler) post onFault := by
  intro state isPre
  obtain ⟨bodyValue, bodyFault⟩ := body state isPre
  rw [outcome_tryCatch]
  rcases ended : program.outcome state with ⟨fault | value, after⟩
  · exact handled fault after (bodyFault _ _ ended)
  · constructor
    · rintro _ _ ⟨⟩
      exact bodyValue _ _ ended
    · rintro _ _ ⟨⟩

variable {whenTrue whenFalse : Faulting Fault State Value}

theorem Ensures.ite {condition : Prop} [Decidable condition]
    (trueCase : condition → Ensures pre whenTrue post onFault)
    (falseCase : ¬ condition → Ensures pre whenFalse post onFault) :
    Ensures pre (if condition then whenTrue else whenFalse) post onFault := by
  split
  · exact trueCase ‹_›
  · exact falseCase ‹_›

variable {strongerPre : State → Prop} {weakerPost : Value → State → Prop}

/-- Strengthen the precondition and weaken the other two conditions. -/
theorem Ensures.imp {weakerFault : State → Prop} (ensures : Ensures pre program post onFault)
    (preImp : ∀ state, strongerPre state → pre state)
    (postImp : ∀ value state, post value state → weakerPost value state)
    (faultImp : ∀ state, onFault state → weakerFault state) :
    Ensures strongerPre program weakerPost weakerFault := by
  intro state isPre
  obtain ⟨valueEnd, faultEnd⟩ := ensures state (preImp state isPre)
  exact ⟨fun value after ended => postImp _ _ (valueEnd value after ended),
    fun fault after ended => faultImp _ (faultEnd fault after ended)⟩

theorem Ensures.ofPre (ensures : Ensures pre program post onFault)
    (preImp : ∀ state, strongerPre state → pre state) :
    Ensures strongerPre program post onFault :=
  ensures.imp preImp (fun _ _ holds => holds) fun _ holds => holds

theorem Ensures.toPost (ensures : Ensures pre program post onFault)
    (postImp : ∀ value state, post value state → weakerPost value state) :
    Ensures pre program weakerPost onFault :=
  ensures.imp (fun _ holds => holds) postImp fun _ holds => holds

theorem Ensures.and {otherPre : State → Prop} {otherPost : Value → State → Prop}
    {otherFault : State → Prop} (first : Ensures pre program post onFault)
    (second : Ensures otherPre program otherPost otherFault) :
    Ensures (fun state => pre state ∧ otherPre state) program
      (fun value state => post value state ∧ otherPost value state)
      (fun state => onFault state ∧ otherFault state) := by
  intro state isPre
  obtain ⟨firstValue, firstFault⟩ := first state isPre.1
  obtain ⟨secondValue, secondFault⟩ := second state isPre.2
  exact ⟨fun value after ended =>
      ⟨firstValue value after ended, secondValue value after ended⟩,
    fun fault after ended =>
      ⟨firstFault fault after ended, secondFault fault after ended⟩⟩

theorem Ensures.assuming {fact : Prop} (known : ∀ state, pre state → fact)
    (ensures : fact → Ensures pre program post onFault) :
    Ensures pre program post onFault :=
  fun state isPre => ensures (known state isPre) state isPre

theorem ensures_true (program : Faulting Fault State Value) :
    Ensures pre program (fun _ _ => True) (fun _ => True) :=
  fun _ _ => ⟨fun _ _ _ => trivial, fun _ _ _ => trivial⟩

theorem Ensures.after {state : State} (ensures : Ensures pre program (fun _ => onFault) onFault)
    (isPre : pre state) : onFault (program.outcome state).2 := by
  obtain ⟨valueEnd, faultEnd⟩ := ensures state isPre
  rcases ended : program.outcome state with ⟨fault | value, after⟩
  · exact faultEnd _ _ ended
  · exact valueEnd _ _ ended

def Keeps (property : State → Prop) (program : Faulting Fault State Value) :
    Prop :=
  Ensures property program (fun _ => property) property

variable {property : State → Prop}

theorem keeps_pure (value : Value) : Keeps property (pure value : Faulting Fault State Value) :=
  ensures_pure fun _ holds => holds

theorem keeps_throw (fault : Fault) : Keeps property (throw fault : Faulting Fault State Value) :=
  ensures_throw fun _ holds => holds

theorem keeps_modifyGet {change : State → Value × State}
    (kept : ∀ state, property state → property (change state).2) :
    Keeps property (modifyGet change : Faulting Fault State Value) :=
  ensures_modifyGet kept

theorem keeps_modify (kept : ∀ state, property state → property (change state)) :
    Keeps property (modify change : Faulting Fault State PUnit) :=
  ensures_modify kept

theorem Keeps.bind (first : Keeps property program) (rest : ∀ value, Keeps property (next value)) :
    Keeps property (program >>= next) :=
  Ensures.bind first rest

theorem Keeps.tryCatch (body : Keeps property program)
    (handled : ∀ fault, Keeps property (handler fault)) :
    Keeps property (tryCatch program handler) :=
  Ensures.tryCatch body handled

theorem Keeps.ite {condition : Prop} [Decidable condition]
    (trueCase : condition → Keeps property whenTrue)
    (falseCase : ¬ condition → Keeps property whenFalse) :
    Keeps property (if condition then whenTrue else whenFalse) :=
  Ensures.ite trueCase falseCase

theorem Keeps.discard (kept : Keeps property program) : Keeps property (discard program) :=
  Keeps.bind kept fun _ => keeps_pure ()

end Rules
end Faulting
/-- A computation that may fail gives a value exactly when both its parts do. -/
theorem except_bind_eq_ok {Fault Value Result : Type}
    {first : Except Fault Value} {next : Value → Except Fault Result}
    {result : Result} :
    (first >>= next) = .ok result ↔ ∃ value, first = .ok value ∧ next value = .ok result := by
  cases first with
  | error fault =>
    change Except.error fault = _ ↔ _
    simp
  | ok value =>
    change next value = _ ↔ _
    simp

end SharpEmu
