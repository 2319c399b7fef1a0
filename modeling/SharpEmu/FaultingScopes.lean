import SharpEmu.FaultingPrograms

/-!
# Which faults a program throws, and programs on a part of a state

`ThrowsOnly` bounds the faults of a program over all the states it may start in;
its rules follow the constructors of programs.  `within` runs a program on a part
of a larger state and translates its faults.
-/

namespace SharpEmu.Faulting

variable {Fault State Value Result : Type}

def ThrowsOnly (faults : Fault → Prop) (program : Faulting Fault State Value) :
    Prop :=
  ∀ state fault, (program.outcome state).1 = .error fault → faults fault

def Returns (values : Value → Prop) (program : Faulting Fault State Value) :
    Prop :=
  Ensures (fun _ => True) program (fun value _ => values value) fun _ => True

section Rules

variable {faults : Fault → Prop} {values : Value → Prop}

theorem throwsOnly_pure (value : Value) :
    ThrowsOnly faults (pure value : Faulting Fault State Value) := by
  rintro _ _ ⟨⟩

theorem throwsOnly_throw {fault : Fault} (allowed : faults fault) :
    ThrowsOnly faults (throw fault : Faulting Fault State Value) := by
  rintro _ _ ⟨⟩
  exact allowed

theorem throwsOnly_modifyGet (change : State → Value × State) :
    ThrowsOnly faults (modifyGet change : Faulting Fault State Value) := by
  rintro _ _ ⟨⟩

theorem throwsOnly_modify (change : State → State) :
    ThrowsOnly faults (modify change : Faulting Fault State PUnit) :=
  throwsOnly_modifyGet _

variable {program : Faulting Fault State Value} {next : Value → Faulting Fault State Result}

theorem ThrowsOnly.bindReturning
    (first : ThrowsOnly faults program) (returned : Returns values program)
    (rest : ∀ value, values value → ThrowsOnly faults (next value)) :
    ThrowsOnly faults (program >>= next) := by
  intro state fault ended
  rw [outcome_bind] at ended
  rcases firstEnd : program.outcome state with ⟨thrown | value, after⟩
  · rw [firstEnd] at ended
    obtain rfl : thrown = fault := Except.error.inj ended
    exact first state thrown (by rw [firstEnd])
  · rw [firstEnd] at ended
    have isValue := (returned state trivial).1 value after firstEnd
    exact rest value isValue after fault ended

theorem ThrowsOnly.bind (first : ThrowsOnly faults program)
    (rest : ∀ value, ThrowsOnly faults (next value)) :
    ThrowsOnly faults (program >>= next) :=
  have anyValue : Returns (fun _ => True) program := ensures_true _
  first.bindReturning anyValue fun value _ => rest value

theorem ThrowsOnly.ite {condition : Prop} [Decidable condition]
    {whenTrue whenFalse : Faulting Fault State Value}
    (trueCase : condition → ThrowsOnly faults whenTrue)
    (falseCase : ¬ condition → ThrowsOnly faults whenFalse) :
    ThrowsOnly faults (if condition then whenTrue else whenFalse) := by
  split
  · exact trueCase ‹_›
  · exact falseCase ‹_›

end Rules

section Scopes

variable {InnerFault Inner : Type}

def within (view : State → Inner) (update : Inner → State → State)
    (raised : InnerFault → Fault) (program : Faulting InnerFault Inner Value) :
    Faulting Fault State Value :=
  fun state =>
    ((program.outcome (view state)).1.mapError raised,
      update (program.outcome (view state)).2 state)

variable {view : State → Inner} {update : Inner → State → State}
variable {raised : InnerFault → Fault}

theorem outcome_within (program : Faulting InnerFault Inner Value) (state : State) :
    (within view update raised program).outcome state =
      ((program.outcome (view state)).1.mapError raised,
        update (program.outcome (view state)).2 state) := rfl

variable {program : Faulting InnerFault Inner Value}

theorem within_eq_ok {state after : State} {value : Value}
    (ended : (within view update raised program).outcome state = (.ok value, after)) :
    ∃ inner, program.outcome (view state) = (.ok value, inner) ∧ after = update inner state := by
  rw [outcome_within] at ended
  obtain ⟨isOk, isAfter⟩ := Prod.mk.inj ended
  rcases isEnd : program.outcome (view state) with ⟨thrown | result, inner⟩
  · rw [isEnd] at isOk
    cases isOk
  · rw [isEnd] at isOk isAfter
    obtain rfl : result = value := Except.ok.inj isOk
    exact ⟨inner, rfl, isAfter.symm⟩

theorem throwsOnly_within {faults : Fault → Prop} {inner : InnerFault → Prop}
    (throwsInner : ThrowsOnly inner program)
    (translated : ∀ fault, inner fault → faults (raised fault)) :
    ThrowsOnly faults (within view update raised program) := by
  intro state fault ended
  rw [outcome_within] at ended
  rcases isEnd : (program.outcome (view state)).1 with thrown | value
  · rw [isEnd] at ended
    obtain rfl : raised thrown = fault := Except.error.inj ended
    exact translated thrown (throwsInner _ _ isEnd)
  · rw [isEnd] at ended
    cases ended

end Scopes

end SharpEmu.Faulting
