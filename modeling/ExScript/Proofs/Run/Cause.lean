import ExScript.Proofs.Result
import ExScript.Proofs.Run.Refusal

/-!
# Causes

An error says why something failed, and one cause stands apart: that expansions are nested too deep
(`Error.expansionTooDeep`). It is found by the expansion of user commands and by nothing else. No
expression has it as its value, no simple command fails with it, and no text is refused for it.

## What hangs on it

A user command takes in what its text fails with: it shows the error and finishes. There is one
exception, which `absorb` knows by the cause and by nothing else. If the budget has run out, the
failure goes on as it is and is shown only at the top. So an expression that could have this error
as its value would go through all user commands around it unseen. Two results would be false then:

* that the errors shown are those that arose, and the bell is rung once or twice according to the
  cause (`Proofs/Run/Report.lean`);
* that a name does what its text does unless there was an attempt beyond the budget
  (`Proofs/Run/Inline.lean`), where the failure is followed back to such an attempt.

Nothing of the kind is known of hooks and of handlers. A hook belongs to the program that put it
into the tree, and it may return any error, this one as well; so both results speak of scripts,
which have no hooks.

## How it is shown

What follows goes through all that can fail, from the values upwards. Each result says of a function
that it never gives this error, and there are two reasons only. Either the error is made in the
function, and then it is a different one by its constructor, which `simp` sees once the cases are
split. Or it comes from a function below and is handed on, which is `error_ne` and `map_ne_error`.
So a new way to fail needs a new line here, and a failure that is only handed on needs none.

## Main results

* `Expression.eval_ne_tooDeep`, `Command.run_ne_tooDeep` — values and commands
* `Script.parse_ne_tooDeep` — reading a script
* `Registry.expansion_ne_tooDeep` — what a name is expanded to
-/

namespace ExScript

/-- What is done to the result of something that succeeds brings no error in. -/
theorem map_ne_error {ε α β : Type} {x : Except ε α} {f : α → β} {e : ε} (h : x ≠ .error e) :
    x.map f ≠ .error e :=
  fun he => h (eq_error_of_map he)

/-- An error that is handed on is the one that came up. -/
theorem error_ne {ε α β : Type} {x : Except ε α} {e cause : ε} (h : x ≠ .error cause)
    (he : x = .error e) : (.error e : Except ε β) ≠ .error cause := by
  rintro ⟨⟩
  exact h he

/-! ### Expressions

Values fail for types that do not fit, for unknown names, for division and for patterns that cannot
be read. The recursion is that of `Expr.eval`; no variable can hold an error, so it does not matter
which variables there are. -/

/-- A function of the language fails for how many arguments it gets, and `range()` for a list that
would be too long as well. -/
theorem Function.apply_ne_tooDeep (vars : Variables) (f : Function) (arguments : List Value) :
    f.apply vars arguments ≠ .error .expansionTooDeep := by
  have consecutive_ne (a b : Int64) : consecutive a b ≠ .error .expansionTooDeep := by
    rw [consecutive]
    split <;> simp
  rw [apply.eq_def]
  split <;> first | exact consecutive_ne _ _ | simp

theorem Function.call_ne_tooDeep (vars : Variables) (name : String) (arguments : List Value) :
    Function.call vars name arguments ≠ .error .expansionTooDeep := by
  rw [call]
  split
  · exact apply_ne_tooDeep vars _ arguments
  · simp

/-- A pattern that cannot be read is an error of its own. -/
theorem Value.isMatch_ne_tooDeep (v p : Value) : v.isMatch p ≠ .error .expansionTooDeep := by
  rw [isMatch]
  split <;> simp

/-- Division and matching are the only operators that fail once their sides have values. -/
theorem BinaryOp.apply_ne_tooDeep (op : BinaryOp) (a b : Value) :
    op.apply a b ≠ .error .expansionTooDeep := by
  cases op with
  | div =>
    rw [apply, Value.div]
    split <;> simp
  | rem =>
    rw [apply, Value.rem]
    split <;> simp
  | matching => exact map_ne_error (a.isMatch_ne_tooDeep b)
  | notMatching => exact map_ne_error (a.isMatch_ne_tooDeep b)
  | _ => simp [apply]

mutual

/-- An expression fails with the error of a part of it or with one of its own. For the operators
that need not look at their right side the cases are those of the evaluation: the left side fails,
or it decides alone, or the right side fails, or the operator does. -/
theorem Expr.eval_ne_tooDeep (vars : Variables) :
    (e : Expr) → e.eval vars ≠ .error .expansionTooDeep
  | .number n => by simp [eval]
  | .text s => by simp [eval]
  | .var name => by
    rw [eval]
    split <;> simp
  | .list items => by
    rw [eval]
    split
    · simp
    next he => exact error_ne (evalItems_ne_tooDeep vars items) he
  | .unary op operand => by
    rw [eval]
    split
    · simp
    next he => exact error_ne (eval_ne_tooDeep vars operand) he
  | .binary op left right => by
    rw [eval]
    split
    next he => exact error_ne (eval_ne_tooDeep vars left) he
    next =>
      split
      · simp
      · split
        · simp
        · split
          next he => exact error_ne (eval_ne_tooDeep vars right) he
          next => exact op.apply_ne_tooDeep _ _
  | .call name arguments => by
    rw [eval]
    split
    · exact Function.call_ne_tooDeep vars name _
    next he => exact error_ne (evalItems_ne_tooDeep vars arguments) he

theorem Expr.evalItems_ne_tooDeep (vars : Variables) :
    (items : List Expr) → evalItems vars items ≠ .error .expansionTooDeep
  | [] => by simp [evalItems]
  | e :: rest => by
    rw [evalItems]
    split
    next he => exact error_ne (eval_ne_tooDeep vars e) he
    next =>
      split
      next he => exact error_ne (evalItems_ne_tooDeep vars rest) he
      next => simp

end

/-- **No expression evaluates to the error that expansions are nested too deep.** -/
theorem Expression.eval_ne_tooDeep (e : Expression) (vars : Variables) :
    e.eval vars ≠ .error .expansionTooDeep :=
  Expr.eval_ne_tooDeep vars e.body

/-- What a `:for` goes through has to be a list, and has to be evaluated first. -/
theorem itemsOf_ne_tooDeep (e : Expression) (vars : Variables) :
    itemsOf e vars ≠ .error .expansionTooDeep := by
  rw [itemsOf]
  split
  · simp
  · simp
  next he => exact error_ne (e.eval_ne_tooDeep vars) he

/-- The parser of expressions knows one error, for whatever cannot be read. -/
theorem Expression.parse_ne_tooDeep (source : String) :
    Expression.parse source ≠ .error .expansionTooDeep := by
  rw [Expression.parse]
  split <;> simp

theorem Expression.parseSequence_ne_tooDeep (source : String) :
    Expression.parseSequence source ≠ .error .expansionTooDeep := by
  rw [parseSequence]
  split <;> simp

/-! ### Commands

One lemma for each function that a command is made of. What a command does with the result is the
same for nearly all of them (`attempt`), so the commands themselves are only taken apart at the end.
-/

namespace Command

/-- A `:let` is read, its right side is read and then evaluated, and the new value is put together
from the old one: four places to fail, in this order. -/
theorem assignIn_ne_tooDeep (vars : Variables) (argument : String) :
    assignIn vars argument ≠ .error .expansionTooDeep := by
  have read_ne : readAssignment argument ≠ .error .expansionTooDeep := by
    rw [readAssignment]
    split
    · split <;> simp
    · simp
  have newValue_ne (op : AssignOp) (name : String) (v : Value) :
      op.newValue vars name v ≠ .error .expansionTooDeep := by
    rw [AssignOp.newValue.eq_def]
    split <;> simp
  rw [assignIn]
  split
  next he => exact error_ne read_ne he
  next op source hread =>
    split
    next he => exact error_ne (Expression.parse_ne_tooDeep source) he
    next e hparse =>
      split
      next he => exact error_ne (e.eval_ne_tooDeep vars) he
      next => exact map_ne_error (newValue_ne op _ _)

/-- Names are taken one by one, and the ones in front of the failure are gone already; so there is
no result to speak of, and the error stands beside the variables. -/
theorem unassignIn_ne_tooDeep (force : Bool) (vars : Variables) (names : List (List Char)) :
    (unassignIn force vars names).1 ≠ some .expansionTooDeep := by
  induction names generalizing vars with
  | nil => simp [unassignIn]
  | cons name rest ih =>
    rw [unassignIn]
    split
    · simp
    · split
      · simp
      · exact ih _

/-- Writing fails for want of a path and where the file cannot be written. -/
theorem writeBuffer_ne_tooDeep (s : Session) (argument : String) :
    writeBuffer s argument ≠ .error .expansionTooDeep := by
  have write_ne (b : Buffer) (tree : FileTree) (path : Option String) :
      b.write tree path ≠ .error .expansionTooDeep := by
    rw [Buffer.write]
    split
    · simp
    · split <;> simp
  rw [writeBuffer]
  split
  next he => exact error_ne (write_ne _ _ _) he
  next => simp

theorem echoText_ne_tooDeep (vars : Variables) (argument : String) :
    echoText vars argument ≠ .error .expansionTooDeep := by
  rw [echoText]
  split
  next he => exact error_ne (Expression.parseSequence_ne_tooDeep argument) he
  next => exact map_ne_error (Expr.evalItems_ne_tooDeep vars _)

/-- A definition is taken apart from the front: its number of arguments, then the name, then the
text. -/
theorem parseDefinition_ne_tooDeep (argument : String) :
    Definition.parse argument ≠ .error .expansionTooDeep := by
  have arity_ne (token : List Char) : Definition.readArity token ≠ .error .expansionTooDeep := by
    rw [Definition.readArity]
    split
    · simp
    · simp
    · simp
    · simp
    · split <;> simp
  have splitArity_ne (text : List Char) :
      Definition.splitArity text ≠ .error .expansionTooDeep := by
    rw [Definition.splitArity]
    split
    · exact map_ne_error (arity_ne _)
    · simp
  have name_ne (name : List Char) : Definition.checkName name ≠ .error .expansionTooDeep := by
    cases name with
    | nil => simp [Definition.checkName]
    | cons c rest =>
      rw [Definition.checkName]
      split
      · simp
      · split <;> simp
  rw [Definition.parse]
  split
  · simp
  · dsimp only
    split
    next he => exact error_ne (splitArity_ne _) he
    next =>
      split
      next he => exact error_ne (name_ne _) he
      next => split <;> simp

theorem runDefinition_ne_tooDeep (s : Session) (definition : Definition) :
    runDefinition s definition ≠ .error .expansionTooDeep := by
  cases definition with
  | list start => simp [runDefinition]
  | define replace name arity text =>
    rw [runDefinition]
    split <;> simp

/-- Lines are deleted once both ends of the range are known. Either of them may lie outside of the
buffer, they may come in the wrong order, and there is no line zero; all of this is one error. -/
theorem runDeleteLines_ne_tooDeep (s : Session) (range : LineRange) :
    runDeleteLines s range ≠ .error .expansionTooDeep := by
  have address_ne (a : Address) : a.resolve s.buffer ≠ .error .expansionTooDeep := by
    rw [Address.resolve]
    split <;> split <;> simp
  have resolve_ne : range.resolve s.buffer ≠ .error .expansionTooDeep := by
    rw [LineRange.resolve]
    split
    · simp
    · exact map_ne_error (address_ne _)
    · split
      · split <;> simp
      next he => exact error_ne (address_ne _) he
      next he => exact error_ne (address_ne _) he
  rw [runDeleteLines]
  split
  · simp
  · split
    next he => exact error_ne resolve_ne he
    next => split <;> simp

theorem runQuit_ne_tooDeep (s : Session) (argument : String) :
    runQuit s argument ≠ .error .expansionTooDeep := by
  rw [runQuit]
  split
  · split <;> simp
  · simp

/-- A command fails with the error of what it attempts, or not at all. -/
theorem attempt_ne_tooDeep {s : Session} {r : Except Error Session}
    (h : r ≠ .error .expansionTooDeep) : (attempt s r).1 ≠ .failed .expansionTooDeep := by
  cases r with
  | error e => simpa [attempt] using h
  | ok s' => simp [attempt]

/-- **A simple command never fails because expansions are nested too deep.** -/
theorem run_ne_tooDeep (c : Command) (scope : Scope) (s : Session) :
    (c.run scope s).1 ≠ .failed .expansionTooDeep := by
  cases c with
  | echo argument => exact attempt_ne_tooDeep (map_ne_error (echoText_ne_tooDeep s.vars argument))
  | assign argument =>
    exact attempt_ne_tooDeep (map_ne_error (assignIn_ne_tooDeep s.vars argument))
  | unassign argument =>
    show (runUnassign s argument).1 ≠ _
    rw [runUnassign]
    split
    · simp
    next force names _ hsplit =>
      have hne := unassignIn_ne_tooDeep force s.vars (Text.words names)
      split
      · simp
      next he =>
        rw [he] at hne
        simpa using hne
  | write argument => exact attempt_ne_tooDeep (writeBuffer_ne_tooDeep s argument)
  | quit argument => exact attempt_ne_tooDeep (runQuit_ne_tooDeep s argument)
  | writeQuit argument =>
    exact attempt_ne_tooDeep (map_ne_error (writeBuffer_ne_tooDeep s argument))
  | exit argument =>
    refine attempt_ne_tooDeep ?_
    split
    · exact map_ne_error (writeBuffer_ne_tooDeep s argument)
    · simp
  | defineCommand argument =>
    refine attempt_ne_tooDeep ?_
    split
    next he => exact error_ne (parseDefinition_ne_tooDeep argument) he
    next => exact runDefinition_ne_tooDeep s _
  | deleteCommand argument =>
    refine attempt_ne_tooDeep (map_ne_error ?_)
    rw [Registry.erase]
    split <;> simp
  | clearCommands => simp [run]
  | deleteLines range => exact attempt_ne_tooDeep (runDeleteLines_ne_tooDeep s range)
  -- Signals are outcomes of their own, and outside of loops the error is another one.
  | breakLoop =>
    rw [run]
    split <;> simp
  | continueLoop =>
    rw [run]
    split <;> simp

end Command

/-! ### Reading

Reading fails for a line on its own, for a divider that does not belong where it is, and for a block
that is open at the end. This is the order of the functions: lines, drafts, scripts. -/

/-- What a keyword demands of its range and its argument. -/
theorem Policy.check_ne_tooDeep (policy : Policy) (range : LineRange) (argument : List Char) :
    policy.check range argument ≠ .error .expansionTooDeep := by
  rw [check]
  split
  next he =>
    refine error_ne ?_ he
    rw [checkRange.eq_def]
    split <;> simp
  next =>
    rw [checkArgument.eq_def]
    split <;> simp

namespace Script

/-- The error for a divider that belongs to no block is made of the divider. -/
theorem Divider.stray_ne_tooDeep (d : Divider) : d.stray ≠ .expansionTooDeep := by
  cases d <;> simp [stray]

/-- The error for a block that is open at the end is made of its kind. -/
theorem Frame.unclosed_ne_tooDeep (frame : Frame) : frame.unclosed ≠ .expansionTooDeep := by
  cases frame <;> simp [unclosed]

theorem readFor_ne_tooDeep (argument : List Char) :
    readFor argument ≠ .error .expansionTooDeep := by
  rw [readFor.eq_def]
  split
  split
  · split
    · exact map_ne_error (Expression.parse_ne_tooDeep _)
    · simp
  · simp

/-- A line is a command with a keyword or one with an unknown name, and the latter is read whatever
comes of it later. So a name that is nested too deep is nothing that reading could find. -/
theorem readLine_ne_tooDeep (statement : List Char) :
    readLine statement ≠ .error .expansionTooDeep := by
  have keyword_ne (keyword : Keyword) (range : LineRange) (argument : List Char) :
      readKeyword keyword range argument ≠ .error .expansionTooDeep := by
    rw [readKeyword.eq_def]
    split
    next line hsimple =>
      obtain ⟨command, -, rfl⟩ := Option.map_eq_some_iff.mp hsimple
      exact map_ne_error (command.policy.check_ne_tooDeep range argument)
    next d _ _ =>
      split
      · simp
      · simpa using d.stray_ne_tooDeep
    next =>
      split
      · simp
      · split
        · exact map_ne_error (readFor_ne_tooDeep argument)
        · exact map_ne_error (Expression.parse_ne_tooDeep _)
        · exact map_ne_error (Expression.parse_ne_tooDeep _)
  rw [readLine]
  dsimp only
  split
  · simp
  · split
    · exact keyword_ne _ _ _
    · simp

namespace Draft

/-- A divider is the only step that looks at the open blocks. The condition of an `:elseif` is read
on the way, and its error is handed on. -/
theorem divide_ne_tooDeep (draft : Draft) (d : Divider) :
    draft.divide d ≠ .error .expansionTooDeep := by
  rw [divide.eq_def]
  dsimp only
  split
  · simp
  · simp
  · exact map_ne_error (Expression.parse_ne_tooDeep _)
  · simp
  · simp
  · simp
  · simp
  · simp
  · simpa using Divider.stray_ne_tooDeep _

theorem step_ne_tooDeep (draft : Draft) (statement : List Char) :
    draft.step statement ≠ .error .expansionTooDeep := by
  rw [step]
  split
  next he => exact error_ne (readLine_ne_tooDeep statement) he
  next => simp
  next => simp
  next => simp
  next => simp
  next d _ => exact draft.divide_ne_tooDeep d

/-- The first line that is refused is the error. -/
theorem steps_ne_tooDeep (statements : List (List Char)) (draft : Draft) :
    draft.steps statements ≠ .error .expansionTooDeep := by
  induction statements generalizing draft with
  | nil => simp [steps]
  | cons statement rest ih =>
    rw [steps]
    split
    next he => exact error_ne (draft.step_ne_tooDeep statement) he
    next next _ => exact ih next

theorem finish_ne_tooDeep (draft : Draft) : draft.finish ≠ .error .expansionTooDeep := by
  rw [finish]
  split
  · simp
  next frame _ _ _ => simpa using frame.unclosed_ne_tooDeep

end Draft

/-- **No text is refused because expansions are nested too deep.** -/
theorem parse_ne_tooDeep (text : String) : parse text ≠ .error .expansionTooDeep := by
  rw [parse, ofStatements]
  split
  next he => exact error_ne (Draft.steps_ne_tooDeep _ _) he
  next draft _ => exact draft.finish_ne_tooDeep

end Script

/-! ### User commands

What is left is what stands between a name and its text. The budget is looked at where an expansion
begins, and that comes before: what an expansion fails with is a refusal. -/

/-- **What a name is expanded to is never nested too deep**: the budget is not looked at there. -/
theorem Registry.expansion_ne_tooDeep (registry : Registry) (name argument : String) :
    registry.expansion name argument ≠ .error .expansionTooDeep :=
  fun h => (Registry.expansion_refuses h).ne_tooDeep rfl

end ExScript
