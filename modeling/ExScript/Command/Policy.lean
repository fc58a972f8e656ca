import ExScript.LineRange

/-!
# Policies of commands

What a command accepts beside its name: a line range in front of it and an argument behind it. A
policy also declares how the command touches the buffer; this is only shown.
-/

namespace ExScript

/-- Whether something must, may or must not be there. -/
inductive Demand where
  | forbidden
  | optional
  | required
  deriving DecidableEq, Repr

/-- How a command touches the buffer. -/
inductive Access where
  | readOnly
  | selfSynchronized
  | writeLock
  deriving DecidableEq, Repr

/-- What a command accepts. -/
structure Policy where
  range : Demand
  argument : Demand
  access : Access
  deriving DecidableEq, Repr

namespace Policy

/-- Checks the range of a command. -/
def checkRange (demand : Demand) (range : LineRange) : Except Error Unit :=
  match demand, range.isEmpty with
  | .forbidden, false => .error .rangeNotAllowed
  | .required, true => .error .invalidRange
  | _, _ => .ok ()

/-- Checks the argument of a command. -/
def checkArgument (demand : Demand) (argument : List Char) : Except Error Unit :=
  match demand, argument.isEmpty with
  | .forbidden, false => .error (.trailingCharacters (String.ofList argument))
  | .required, true => .error .argumentRequired
  | _, _ => .ok ()

/-- Checks the range and then the argument of a command. -/
def check (policy : Policy) (range : LineRange) (argument : List Char) : Except Error Unit :=
  match checkRange policy.range range with
  | .error e => .error e
  | .ok () => checkArgument policy.argument argument

end Policy

end ExScript
