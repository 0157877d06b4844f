import PageScript.Machine.Script

/-! # The embedding program

A host answers while scripts run, and supplies the functions and hooks that are registered under the
names of its behaviors.
-/

set_option autoImplicit false

namespace PageScript

/-- An embedding program. -/
structure Host extends Observer where
  /-- Applies a function, with its `this` and its arguments. -/
  native : String → Value → List Value → Script Value
  /-- Answers the read of a variable; the object is the owner of the hook. -/
  readHook : String → ObjectId → Script Value
  /-- Answers the write of a variable and yields what counts as written. -/
  writeHook : String → ObjectId → Value → Script Value
  /-- Takes up the name of a member that is about to be added to an object, or leaves it. -/
  offer : String → ObjectId → String → Script Bool

namespace Host

/-! ## Watching without interference -/

/-- A time in microseconds, in the largest unit that leaves it above one. -/
def durationText (microseconds : Nat) : String :=
  if 1000000 ≤ microseconds then scaled microseconds 6 ++ "s"
  else if 1000 ≤ microseconds then scaled microseconds 3 ++ "ms"
  else toString microseconds ++ "µs"
where
  /-- A number with its point moved to the left, and without trailing zeros. -/
  scaled (n places : Nat) : String :=
    let digits := (toString (10 ^ places + n % 10 ^ places)).toList.drop 1
    let fraction := (digits.reverse.dropWhile (· == '0')).reverse
    let whole := toString (n / 10 ^ places)
    if fraction.isEmpty then whole else whole ++ "." ++ String.ofList fraction

/-- Watches runs for a time limit in milliseconds; errors end a run, and nothing is stepped. -/
def withTimeout (timeout : Option Nat) : Observer where
  feedback _ elements :=
    match timeout with
    | some limit =>
      if limit * elementsPerMillisecond < elements then
        .cancel (some ("script stopped after "
          ++ durationText (elements * 1000 / elementsPerMillisecond) ++ " ("
          ++ toString elements ++ " elements evaluated)"))
      else .goOn
    | none => .goOn
  onError _ _ := .abort
  onStep _ _ := .goOn

end Host

end PageScript
