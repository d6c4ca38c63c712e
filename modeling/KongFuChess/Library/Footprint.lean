import Mathlib.Data.List.Basic

/-!
# Computations and what they read

A computation over a store is run together with the list of the addresses it reads. Its value is
missing when it was given too little fuel; the reads made until then count all the same, so a bound
on the reads that holds for every fuel also holds for a run that never ends.
-/

universe u v

namespace KongFuChess

/-- A run of a computation: its value, if it came to an end, and the addresses it has read. -/
structure Footprint (Address : Type u) (Value : Type v) where
  value : Option Value
  reads : List Address

namespace Footprint

variable {Address : Type u} {Value Result : Type v}

/-- Read one address of the store. -/
def read (address : Address) (content : Value) : Footprint Address Value where
  value := some content
  reads := [address]

/-- The fuel is used up. -/
def stuck : Footprint Address Value where
  value := none
  reads := []

instance : Monad (Footprint Address) where
  pure result := { value := some result, reads := [] }
  bind run next :=
    match run.value with
    | none => { value := none, reads := run.reads }
    | some result =>
      { value := (next result).value, reads := run.reads ++ (next result).reads }

@[simp]
theorem value_pure (result : Value) : (pure result : Footprint Address Value).value = some result :=
  rfl

@[simp]
theorem reads_pure (result : Value) : (pure result : Footprint Address Value).reads = [] := rfl

@[simp]
theorem value_read (address : Address) (content : Value) :
    (read address content).value = some content := rfl

@[simp]
theorem reads_read (address : Address) (content : Value) :
    (read address content).reads = [address] := rfl

section Bind

variable (run : Footprint Address Value) (next : Value → Footprint Address Result)

theorem value_bind : (run >>= next).value = run.value.bind fun result ↦ (next result).value := by
  cases h : run.value with
  | none => simp only [Bind.bind, h, Option.bind_none]
  | some result => simp only [Bind.bind, h, Option.bind_some]

@[simp]
theorem read_bind_value (address : Address) (content : Value)
    (next : Value → Footprint Address Result) :
    (read address content >>= next).value = (next content).value := rfl

@[simp]
theorem read_bind_reads (address : Address) (content : Value)
    (next : Value → Footprint Address Result) :
    (read address content >>= next).reads = address :: (next content).reads := rfl

end Bind

/-! ## Bounds on the reads -/

/-- Every read of the run is allowed. -/
def Within (Allowed : Address → Prop) (run : Footprint Address Value) : Prop :=
  ∀ address ∈ run.reads, Allowed address

section Within

variable {Allowed : Address → Prop} {run : Footprint Address Value}
  {next : Value → Footprint Address Result}

@[simp]
theorem within_pure (result : Value) : (pure result : Footprint Address Value).Within Allowed :=
  List.forall_mem_nil _

@[simp]
theorem within_stuck : (stuck : Footprint Address Value).Within Allowed := List.forall_mem_nil _

@[simp]
theorem within_read (address : Address) (content : Value) :
    (read address content).Within Allowed ↔ Allowed address := List.forall_mem_singleton

/-- The reads of a sequence are those of its first part and, where that comes to an end, those of
what follows. -/
theorem within_bind : (run >>= next).Within Allowed ↔
    run.Within Allowed ∧ ∀ result, run.value = some result → (next result).Within Allowed := by
  unfold Within
  cases h : run.value with
  | none => simp [Bind.bind, h]
  | some result => simp [Bind.bind, h, or_imp, forall_and]

theorem Within.bind (hrun : run.Within Allowed)
    (hnext : ∀ result, run.value = some result → (next result).Within Allowed) :
    (run >>= next).Within Allowed := within_bind.2 ⟨hrun, hnext⟩

@[simp]
theorem within_read_bind (address : Address) (content : Value)
    (next : Value → Footprint Address Result) :
    (read address content >>= next).Within Allowed ↔
      Allowed address ∧ (next content).Within Allowed := by
  simp [within_bind]

end Within

/-! ## Computations with fuel -/

/-- Every read is allowed whatever the fuel, more fuel than the given number of steps lets the
computation end with the result, and no other fuel gives another value. -/
structure EndsWithin (Allowed : Address → Prop) (steps : ℕ) (run : ℕ → Footprint Address Value)
    (result : Value) : Prop where
  within : ∀ fuel, (run fuel).Within Allowed
  value_eq : ∀ fuel, steps < fuel → (run fuel).value = some result
  eq_of_value : ∀ fuel value, (run fuel).value = some value → value = result

namespace EndsWithin

variable {Allowed : Address → Prop} {steps : ℕ} {run : ℕ → Footprint Address Value}
  {result : Value}

theorem pure (result : Value) :
    EndsWithin Allowed steps (fun _ ↦ (Pure.pure result : Footprint Address Value)) result where
  within _ := within_pure result
  value_eq _ _ := rfl
  eq_of_value _ _ h := (Option.some.inj h).symm

theorem read {address : Address} (content : Value) (haddress : Allowed address) :
    EndsWithin Allowed steps (fun _ ↦ Footprint.read address content) content where
  within _ := (within_read address content).2 haddress
  value_eq _ _ := rfl
  eq_of_value _ _ h := (Option.some.inj h).symm

/-- What follows is only ever run on the one value of the first part. -/
theorem bind {last : Result} {next : ℕ → Value → Footprint Address Result}
    (hrun : EndsWithin Allowed steps run result)
    (hnext : EndsWithin Allowed steps (fun fuel ↦ next fuel result) last) :
    EndsWithin Allowed steps (fun fuel ↦ run fuel >>= next fuel) last where
  within fuel := by
    apply (hrun.within fuel).bind
    intro value hvalue
    rw [hrun.eq_of_value fuel value hvalue]
    exact hnext.within fuel
  value_eq fuel hfuel := by
    rw [value_bind, hrun.value_eq fuel hfuel, Option.bind_some]
    exact hnext.value_eq fuel hfuel
  eq_of_value fuel value hvalue := by
    rw [value_bind, Option.bind_eq_some_iff] at hvalue
    obtain ⟨first, hfirst, hvalue⟩ := hvalue
    rw [hrun.eq_of_value fuel first hfirst] at hvalue
    exact hnext.eq_of_value fuel value hvalue

end EndsWithin

end Footprint

end KongFuChess
