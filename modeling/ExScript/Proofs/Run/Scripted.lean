import ExScript.Proofs.Run.Adequacy
import ExScript.Proofs.Run.Effect
import ExScript.Proofs.Script.Blocks

/-!
# Scripts without foreign code

What a program that embeds scripts adds to them comes in through two doors: hooks in the tree of a
script, and native handlers in the registry. Nothing can be said about what such code does, so
statements about all runs keep the doors shut or ask for something of what comes in.

Both doors stay as they are. A tree that was read from a text holds no hooks. And scripts can
define user commands but not bind handlers, so a registry without handlers remains one, and in it a
name is never expanded to a handler.

## Main definitions

* `Task.AllHooks` — a task is no handler, and its hooks are as asked for

## Main results

* `Runs.onlyScripts` — a run keeps a registry without handlers so
* `Script.allHooks_of_parse` — what is read holds no hooks
-/

namespace ExScript

/-! ### Registries without handlers

The first door. A handler is called only through an entry of the registry, so it is enough to keep
the entries apart. -/

/-- Where there are no handlers no name is expanded to one. -/
theorem Registry.OnlyScripts.expansion_ne_handler {registry : Registry} (h : registry.OnlyScripts)
    {name argument : String} {n : Native} :
    registry.expansion name argument ≠ .ok (.handler n) := by
  intro he
  have goal_ne : ∀ handler arguments,
      registry.goal name argument ≠ .ok (.native handler arguments) := by
    intro handler arguments hgoal
    rw [Registry.goal] at hgoal
    cases hc : registry.get? name with
    | none => simp [hc] at hgoal
    | some c =>
      obtain ⟨text, htext⟩ := h name c hc
      simp only [hc, UserCommand.goal, htext] at hgoal
      split at hgoal <;> cases hgoal
  rw [Registry.expansion] at he
  split at he
  next => cases he
  next handler arguments hgoal => exact goal_ne handler arguments hgoal
  next =>
    split at he
    · cases he
    · split at he <;> cases he

/-- The body that a name is expanded to was read from a text. Nothing is put together in an
expansion, so what is known of texts is known of bodies, whichever user command they come from. -/
theorem Registry.parseCommand?_of_expansion {registry : Registry} {name argument : String}
    {x : Stmt} (h : registry.expansion name argument = .ok (.body x)) :
    ∃ text, Script.parseCommand? text = some x := by
  rw [Registry.expansion] at h
  split at h
  · cases h
  · cases h
  next text hgoal =>
    split at h
    · cases h
    · split at h
      · cases h
      · cases h
      next hparse =>
        cases h
        exact ⟨text, hparse⟩

theorem absorb_commands (o : Outcome) (s : Session) : (absorb o s).2.commands = s.commands := by
  simp only [absorb]
  split <;> rfl

/-- **A run binds no handlers.** The registry in which a run begins may change with every statement,
so this is what has to be known wherever a name is expanded in the middle of a run. Handlers may be
there from the start: nothing is said of them, and they cannot bind others either. -/
theorem Runs.onlyScripts {b d : Nat} {scope : Scope} {task : Task} {s s' : Session} {t : Trace}
    {o : Outcome} (h : Runs b d scope task s t o s') (hs : s.commands.OnlyScripts) :
    s'.commands.OnlyScripts := by
  induction h with
  | @simple _ _ scope c s => exact (c.run_effect scope s).scripts hs
  | @hook b _ scope hk s => exact (hk.runWithin_effect b scope s).scripts hs
  | unknown _ ih | block _ ih | forEach _ _ ih | chooseElse _ ih => exact ih hs
  | nil | forFail | eachEnd | chooseNone | notCallable | tooDeep | notExpanded | done => exact hs
  | cons _ _ ihx ihxs => exact ihxs (ihx hs)
  | stop _ _ ih => exact ih hs
  | whileFail hc => exact (Condition.effect_of_checkWithin hc).scripts hs
  | whileEnd hc => exact (Condition.effect_of_checkWithin hc).scripts hs
  | whileNext hc _ _ _ ihb ihl => exact ihl (ihb ((Condition.effect_of_checkWithin hc).scripts hs))
  | whileExit hc _ _ ihb => exact ihb ((Condition.effect_of_checkWithin hc).scripts hs)
  | eachNext _ _ _ ihb ihl => exact ihl (ihb hs)
  | eachExit _ _ ihb => exact ihb hs
  | chooseFail hc => exact (Condition.effect_of_checkWithin hc).scripts hs
  | chooseHere hc _ ih => exact ih ((Condition.effect_of_checkWithin hc).scripts hs)
  | chooseNext hc _ ih => exact ih ((Condition.effect_of_checkWithin hc).scripts hs)
  | native _ _ _ ih => exact ih hs
  | chain _ _ _ ih => exact ih hs
  | expanded _ _ _ ih =>
    rw [absorb_commands]
    exact ih hs
  | report _ ih => exact ih hs
  | reportError _ ih => exact ih hs
  | setVariable _ ih => exact ih hs
  | askBudget _ ih => exact ih hs
  | runNothing _ _ ih => exact ih hs
  | runScript _ _ _ ihx ihn => exact ihn (ihx hs)

/-! ### Hooks in trees

The second door. What is asked of hooks differs: that there are none (`fun _ => False`), that they
do not look at the budget, or at the depth. So the property is a parameter, and a tree has it in all
its hooks. -/

section Hooks

variable (p : ∀ {α : Type}, Hook α → Prop)

/-- Whether the hook of a condition is as asked for, if it is one. -/
def Condition.AllHooks : Condition → Prop
  | .expression _ => True
  | .hook h => p h

mutual

/-- Whether each hook of a statement is as asked for. -/
def Stmt.AllHooks : Stmt → Prop
  | .simple _ => True
  | .unknown _ _ _ => True
  | .whileLoop condition body => condition.AllHooks p ∧ Stmt.AllHooksOfAll body
  | .forLoop _ _ body => Stmt.AllHooksOfAll body
  | .choose branches otherwise =>
    Stmt.AllHooksOfBranches branches ∧ Stmt.AllHooksOfElse otherwise
  | .block body => Stmt.AllHooksOfAll body
  | .hook h => p h

/-- Whether each hook of a sequence is as asked for. -/
def Stmt.AllHooksOfAll : List Stmt → Prop
  | [] => True
  | x :: xs => x.AllHooks ∧ Stmt.AllHooksOfAll xs

/-- Whether each hook of some branches is as asked for. -/
def Stmt.AllHooksOfBranches : List (Condition × List Stmt) → Prop
  | [] => True
  | (condition, body) :: rest =>
    condition.AllHooks p ∧ Stmt.AllHooksOfAll body ∧ Stmt.AllHooksOfBranches rest

/-- Whether each hook behind an `:else` is as asked for. -/
def Stmt.AllHooksOfElse : Option (List Stmt) → Prop
  | none => True
  | some body => Stmt.AllHooksOfAll body

end

/-- Whether a task is none of a handler and each of its hooks is as asked for. -/
def Task.AllHooks : Task → Prop
  | .stmt x => x.AllHooks p
  | .body xs => Stmt.AllHooksOfAll p xs
  | .each _ xs _ => Stmt.AllHooksOfAll p xs
  | .call _ _ => True
  | .handler _ => False

namespace Script

/-- Whether each hook of a part of a script is as asked for. -/
def Part.AllHooks : Part → Prop
  | block body => Stmt.AllHooksOfAll p body
  | statement s => s.AllHooks p
  | branches rest =>
    Stmt.AllHooksOfBranches p (rest.map fun branch => (.expression branch.1, branch.2))
  | otherwise body => Stmt.AllHooksOfElse p body

/-- The grammar knows no hooks. -/
theorem Derives.allHooks {part : Part} {row : List (List Char)} (h : Derives part row) :
    part.AllHooks p := by
  induction h with
  | nil => exact trivial
  | cons _ _ ihx ihxs => exact ⟨ihx, ihxs⟩
  | plain first => cases first <;> exact trivial
  | whileLoop _ _ _ ih => exact ⟨trivial, ih⟩
  | forLoop _ _ _ ih => exact ih
  | choose _ _ _ _ _ ihBody ihRest ihElse => exact ⟨⟨trivial, ihBody, ihRest⟩, ihElse⟩
  | noBranch => exact trivial
  | branch _ _ _ ihBody ihRest => exact ⟨trivial, ihBody, ihRest⟩
  | noElse => exact trivial
  | elseBody _ _ ih => exact ih

/-- **What is read from a text holds no hooks**, so they are all as asked for, whatever that is. -/
theorem allHooks_of_parse {text : String} {body : List Stmt} (h : parse text = .ok body) :
    Stmt.AllHooksOfAll p body :=
  (derives_of_ofStatements h).allHooks p

/-- The same for a text that is read as one statement, as the text of a user command is. -/
theorem allHooks_of_parseCommand? {text : String} {x : Stmt} (h : parseCommand? text = some x) :
    x.AllHooks p := by
  rw [parseCommand?] at h
  split at h
  next s hparse =>
    cases h
    exact (allHooks_of_parse p hparse).1
  next hparse =>
    cases h
    exact allHooks_of_parse p hparse
  next => cases h

end Script

end Hooks

end ExScript
