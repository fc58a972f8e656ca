import ExScript.Run.Command

/-!
# Running statements

What a statement does to a machine. The only statement that is not run by its structure is a
command with an unknown name, which may be a user command with a replacement text of any size; what
such a command does is a parameter here, of type `Caller`.

Loops take in the signals to leave them and to go on, and let a failure through. A `:while` burns
fuel, one unit for each pass; if none is left when its condition holds, the run stops short.
-/

namespace ExScript

/-- What a command with an unknown name does, given its name, its argument and its scope. -/
abbrev Caller := String → String → Scope → Run

/-! ### Hooks and conditions -/

namespace Hook

/-- What a hook sees of a session and its scope. -/
def sight (key : String) (scope : Scope) (s : Session) : Sight :=
  { depth := scope.depth
    withinLoop := scope.withinLoop
    budget := s.budget
    count := s.tally key }

/-- The result of a hook, and the session after its message and with the use counted. -/
def run {α : Type} (hook : Hook α) (scope : Scope) (s : Session) : α × Session :=
  let (message, a) := hook.react (sight hook.key scope s)
  let s := { s with tallies := s.tallies.insert hook.key (s.tally hook.key + 1) }
  match message with
  | some text => (a, s.tell (.report text))
  | none => (a, s)

end Hook

/-- Whether a condition holds, and the session after it was asked. -/
def Condition.check (c : Condition) (scope : Scope) (s : Session) : Except Error Bool × Session :=
  match c with
  | .expression e => ((e.eval s.vars).map Value.toBool, s)
  | .hook h => h.run scope s

/-! ### Loops -/

/-- Runs a body as long as a condition holds, for at most `passes` passes. -/
def repeatWhile (test : Session → Except Error Bool × Session) (body : Run) : Nat → Run
  | passes, m =>
    match test m.session with
    | (.error e, session) => (some (.failed e), { m with session })
    | (.ok false, session) => (some .finished, { m with session })
    | (.ok true, session) =>
      match passes, m.fuel with
      | passes + 1, fuel + 1 =>
        match body ⟨fuel, session⟩ with
        | (none, m) => (none, m)
        | (some outcome, m) =>
          match outcome.inLoop with
          | .next => repeatWhile test body passes m
          | .exit outcome => (some outcome, m)
      | _, _ => (none, { m with session })

/-- Runs a body for each item of a list, which a variable has during the pass. -/
def repeatFor (name : String) (body : Run) : List Value → Run
  | [], m => (some .finished, m)
  | item :: rest, m =>
    match body { m with
        session := { m.session with vars := m.session.vars.set name item } } with
    | (none, m) => (none, m)
    | (some outcome, m) =>
      match outcome.inLoop with
      | .next => repeatFor name body rest m
      | .exit outcome => (some outcome, m)

/-- The items of a list that an expression has to evaluate to. -/
def itemsOf (e : Expression) (vars : Variables) : Except Error (List Value) :=
  match e.eval vars with
  | .ok (.list items) => .ok items
  | .ok _ => .error .listRequired
  | .error e => .error e

/-! ### Statements -/

mutual

/-- Runs a statement. -/
def Stmt.exec (call : Caller) : Stmt → Scope → Run
  | .simple c, scope, m => Run.ofSession (fun s => c.run scope s) m
  | .unknown _ name argument, scope, m => call name argument scope m
  | .whileLoop condition body, scope, m =>
    repeatWhile (condition.check scope) (fun m => Stmt.execAll call body (scope.enter .loop) m)
      m.fuel m
  | .forLoop name items body, scope, m =>
    match itemsOf items m.session.vars with
    | .error e => (some (.failed e), m)
    | .ok values =>
      repeatFor name (fun m => Stmt.execAll call body (scope.enter .loop) m) values m
  | .choose branches otherwise, scope, m =>
    Stmt.execFirst call branches scope
      (fun m => Stmt.execOtherwise call otherwise (scope.enter .conditional) m) m
  | .block body, scope, m => Stmt.execAll call body scope m
  | .hook h, scope, m => Run.ofSession (fun s => h.run scope s) m

/-- Runs statements one after the other, up to the first that does not finish. -/
def Stmt.execAll (call : Caller) : List Stmt → Scope → Run
  | [], _, m => (some .finished, m)
  | s :: rest, scope, m =>
    match s.exec call scope m with
    | (some .finished, m) => Stmt.execAll call rest scope m
    | r => r

/-- Runs the body behind `:else`, if there is one. -/
def Stmt.execOtherwise (call : Caller) : Option (List Stmt) → Scope → Run
  | none, _, m => (some .finished, m)
  | some body, scope, m => Stmt.execAll call body scope m

/-- Runs the first branch whose condition holds, or something else if none does. -/
def Stmt.execFirst (call : Caller) : List (Condition × List Stmt) → Scope → Run → Run
  | [], _, otherwise, m => otherwise m
  | (condition, body) :: rest, scope, otherwise, m =>
    match condition.check scope m.session with
    | (.error e, session) => (some (.failed e), { m with session })
    | (.ok true, session) =>
      Stmt.execAll call body (scope.enter .conditional) { m with session }
    | (.ok false, session) => Stmt.execFirst call rest scope otherwise { m with session }

end

end ExScript
