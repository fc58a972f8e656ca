import ExScript.Proofs.Run.Trace

/-!
# Runs in single steps

The rules of `Runs` speak of runs that come to an end, and the functions that run statements have
something to show only when they are done. Statements about what is true all along, or about what
was done before something else, need the way in between. Here it is taken in single steps: a machine
runs one script after the other, and each of its steps does one thing to the session, its *deed*.

What is left to be done behind the task that is run now is kept on a stack. So a configuration of
the machine knows all that lies ahead, and none of what lies behind; that is in the deeds of the
steps that led to it. The session is what the deeds have made of it (`Steps.session_eq`).

A script may run for ever. Its steps are there all the same, which is why the machine has no fuel.
`Proofs/Run/Course.lean` shows that runs that end are the same here and there.

## Main definitions

* `Deed` — what a step does to a session
* `Task.start`, `Sequel.resume` — the first step of a task, and the step behind its end
* `Config`, `Step`, `Steps` — the machine, and the deeds of a row of its steps

## Main results

* `Step.control_of_command` — a step that runs a command ends as the command does
* `Steps.session_eq` — the session is what the deeds have made of it
* `Steps.invariant` — what every step keeps holds all along
-/

namespace ExScript

/-! ### Deeds -/

/-- The place where a task is run: how many expansions may still be nested in it and in how many it
is nested, and what stands around it. -/
structure Site where
  budget : Nat
  depth : Nat
  scope : Scope

namespace Site

/-- Where scripts are run. -/
def top : Site := ⟨maxExpansions, 0, .root⟩

/-- Inside of something that is opened here. -/
def enter (site : Site) (kind : ScopeKind) : Site :=
  { site with scope := site.scope.enter kind }

end Site

/-- What a step does to a session. -/
inductive Deed where
  | nothing
  | command (c : Command) (scope : Scope)
  | hook (h : Hook Outcome) (site : Site)
  | ask (c : Condition) (site : Site)
  | assign (name : String) (v : Value)
  | tell (e : Event)
  /-- A user command takes in what its text ended with. -/
  | absorb (o : Outcome)
  /-- A script ends so. -/
  | finish (o : Outcome)
  | read (text : String)
  | refuse (text : String) (cause : Error)

/-- The session behind the end of a script: a failure is shown, with a bell. -/
def Outcome.conclude (o : Outcome) (s : Session) : Session :=
  match o with
  | .failed e => (s.tell (.error e)).tell .bell
  | _ => s

/-- The session after a deed. -/
def Deed.apply : Deed → Session → Session
  | .nothing, s => s
  | .command c scope, s => (c.run scope s).2
  | .hook h site, s => (h.runWithin site.budget site.scope s).2
  | .ask c site, s => (c.checkWithin site.budget site.scope s).2
  | .assign name v, s => { s with vars := s.vars.set name v }
  | .tell e, s => s.tell e
  | .absorb o, s => (ExScript.absorb o s).2
  | .finish o, s => o.conclude s
  | .read _, s => s
  | .refuse _ cause, s => (Outcome.failed cause).conclude s

/-- The session after some deeds, one after the other. -/
def Session.after (s : Session) (deeds : List Deed) : Session :=
  deeds.foldl (fun s d => d.apply s) s

namespace Session

variable (s : Session) (d : Deed) (ds es : List Deed)

@[simp] theorem after_nil : s.after [] = s := rfl

@[simp] theorem after_cons : s.after (d :: ds) = (d.apply s).after ds := rfl

@[simp] theorem after_append : s.after (ds ++ es) = (s.after ds).after es :=
  List.foldl_append

variable {s ds}

/-- What each deed keeps of a session all of them keep. -/
theorem after_of_keeps {p : Session → Prop} (hkeeps : ∀ d ∈ ds, ∀ s, p s → p (d.apply s))
    (h : p s) : p (s.after ds) :=
  List.foldlRecOn ds _ h fun s hs d hd => hkeeps d hd s hs

end Session

/-! ### The machine -/

/-- What is to be done behind the end of a task. -/
inductive Sequel where
  /-- Statements, if the one before them finishes. -/
  | body (site : Site) (xs : List Stmt)
  /-- Further passes of a `:while`. -/
  | passes (site : Site) (c : Condition) (xs : List Stmt)
  /-- Further passes of a `:for`. -/
  | each (site : Site) (name : String) (xs : List Stmt) (values : List Value)
  /-- A user command takes in what its text ends with. -/
  | absorb
  /-- A handler goes on. -/
  | handler (site : Site) (next : Option Outcome → Native)

/-- What the machine is at. -/
inductive Control where
  /-- No script is run. -/
  | idle
  /-- A task is about to be run. -/
  | run (site : Site) (task : Task)
  /-- A task has ended. -/
  | ended (o : Outcome)

/-- A step: its deed, where it leads to, and what is put off until later. -/
structure Turn where
  deed : Deed := .nothing
  next : Control
  sequels : List Sequel := []

/-- What running a task begins with. -/
def Task.start (site : Site) (s : Session) : Task → Turn
  | .stmt (.simple c) => { deed := .command c site.scope, next := .ended (c.run site.scope s).1 }
  | .stmt (.hook h) =>
    { deed := .hook h site, next := .ended (h.runWithin site.budget site.scope s).1 }
  | .stmt (.unknown _ name argument) => { next := .run site (.call name argument) }
  | .stmt (.block xs) => { next := .run site (.body xs) }
  | .stmt (.whileLoop c xs) =>
    match (c.checkWithin site.budget site.scope s).1 with
    | .error e => { deed := .ask c site, next := .ended (.failed e) }
    | .ok false => { deed := .ask c site, next := .ended .finished }
    | .ok true =>
      { deed := .ask c site
        next := .run (site.enter .loop) (.body xs)
        sequels := [.passes site c xs] }
  | .stmt (.forLoop name e xs) =>
    match itemsOf e s.vars with
    | .error e => { next := .ended (.failed e) }
    | .ok values => { next := .run site (.each name xs values) }
  | .stmt (.choose [] none) => { next := .ended .finished }
  | .stmt (.choose [] (some xs)) => { next := .run (site.enter .conditional) (.body xs) }
  | .stmt (.choose ((c, xs) :: branches) otherwise) =>
    match (c.checkWithin site.budget site.scope s).1 with
    | .error e => { deed := .ask c site, next := .ended (.failed e) }
    | .ok false => { deed := .ask c site, next := .run site (.stmt (.choose branches otherwise)) }
    | .ok true => { deed := .ask c site, next := .run (site.enter .conditional) (.body xs) }
  | .body [] => { next := .ended .finished }
  | .body (x :: xs) => { next := .run site (.stmt x), sequels := [.body site xs] }
  | .each _ _ [] => { next := .ended .finished }
  | .each name xs (v :: values) =>
    { deed := .assign name v
      next := .run (site.enter .loop) (.body xs)
      sequels := [.each site name xs values] }
  | .call name argument =>
    if !s.commands.isCallable name then
      { next := .ended (.failed (.notACommand (commandLine name argument))) }
    else
      match site.budget with
      | 0 => { deed := .tell .bell, next := .ended (.failed .expansionTooDeep) }
      | budget + 1 =>
        let inside : Site := { site with budget, depth := site.depth + 1 }
        match s.commands.expansion name argument with
        | .error e => { next := .ended (.failed e) }
        | .ok (.handler n) => { next := .run inside (.handler n) }
        | .ok (.command next argument) => { next := .run inside (.call next argument) }
        | .ok (.body x) => { next := .run inside (.stmt x), sequels := [.absorb] }
  | .handler .done => { next := .ended .finished }
  | .handler (.report text next) =>
    { deed := .tell (.report text), next := .run site (.handler next) }
  | .handler (.reportError cause next) =>
    { deed := .tell (.error cause), next := .run site (.handler next) }
  | .handler (.setVariable name v next) =>
    { deed := .assign name v, next := .run site (.handler next) }
  | .handler (.askBudget next) => { next := .run site (.handler (next site.budget)) }
  | .handler (.run text next) =>
    match Script.parseCommand? text with
    | none => { next := .run site (.handler (next none)) }
    | some x =>
      { next := .run { site with scope := .root } (.stmt x), sequels := [.handler site next] }

/-- What is done when a task has ended so in front of a sequel. -/
def Sequel.resume (s : Session) (o : Outcome) : Sequel → Turn
  | .body site xs =>
    match o with
    | .finished => { next := .run site (.body xs) }
    | o => { next := .ended o }
  | .passes site c xs =>
    match o.inLoop with
    | .next => { next := .run site (.stmt (.whileLoop c xs)) }
    | .exit o => { next := .ended o }
  | .each site name xs values =>
    match o.inLoop with
    | .next => { next := .run site (.each name xs values) }
    | .exit o => { next := .ended o }
  | .absorb => { deed := .absorb o, next := .ended (ExScript.absorb o s).1 }
  | .handler site next => { next := .run site (.handler (next (some o))) }

/-- A configuration: what the machine is at, what is to be done behind that, first things first, and
the session. -/
structure Config where
  control : Control
  sequels : List Sequel
  session : Session

namespace Config

/-- The configuration in which no script is run. -/
def idle (s : Session) : Config := ⟨.idle, [], s⟩

/-- The configuration that a turn leads to. -/
def turn (s : Session) (t : Turn) (sequels : List Sequel) : Config :=
  ⟨t.next, t.sequels ++ sequels, t.deed.apply s⟩

end Config

/-- A step inside of a script. -/
inductive Move : Config → Deed → Config → Prop where
  | start {site task sequels s} :
    Move ⟨.run site task, sequels, s⟩ (task.start site s).deed
      (.turn s (task.start site s) sequels)
  | resume {o q sequels s} :
    Move ⟨.ended o, q :: sequels, s⟩ (q.resume s o).deed (.turn s (q.resume s o) sequels)

/-- A step of the machine. Any script can be the next one. -/
inductive Step : Config → Deed → Config → Prop where
  | move {c d c'} : Move c d c' → Step c d c'
  | read {s text body} :
    Script.parse text = .ok body → Step (.idle s) (.read text) ⟨.run .top (.body body), [], s⟩
  | refuse {s text cause} :
    Script.parse text = .error cause →
      Step (.idle s) (.refuse text cause) (.idle ((Outcome.failed cause).conclude s))
  | finish {o s} : Step ⟨.ended o, [], s⟩ (.finish o) (.idle (o.conclude s))

/-- The configurations that a configuration leads to, with the deeds on the way. -/
inductive Steps (c : Config) : List Deed → Config → Prop where
  | refl : Steps c [] c
  | snoc {ds c' d c''} : Steps c ds c' → Step c' d c'' → Steps c (ds ++ [d]) c''

/-! ### Sessions -/

theorem Move.session_eq {c c' : Config} {d : Deed} (h : Move c d c') :
    c'.session = d.apply c.session := by
  cases h <;> rfl

/-- A step does its deed and nothing else to the session. -/
theorem Step.session_eq {c c' : Config} {d : Deed} (h : Step c d c') :
    c'.session = d.apply c.session := by
  cases h with
  | move h => exact h.session_eq
  | read | refuse | finish => rfl

/-! ### Commands -/

/-- A task that begins with a command is that command. -/
theorem Task.next_of_command {site : Site} {s : Session} {task : Task} {x : Command} {scope : Scope}
    (h : (task.start site s).deed = .command x scope) :
    (task.start site s).next = .ended (x.run scope s).1 := by
  revert h
  fun_cases Task.start site s task with
  | case1 c =>
    rintro ⟨⟩
    rfl
  | _ => rintro ⟨⟩

/-- Behind the end of a task nothing is done at once, unless a user command takes the end in. -/
theorem Sequel.deed_resume (s : Session) (o : Outcome) (q : Sequel) :
    (q.resume s o).deed = .nothing ∨ (q.resume s o).deed = .absorb o := by
  cases q with
  | body => cases o <;> exact .inl rfl
  | passes | each =>
    rw [Sequel.resume]
    split <;> exact .inl rfl
  | absorb => exact .inr rfl
  | handler => exact .inl rfl

/-- A step that runs a command ends as the command does. -/
theorem Step.control_of_command {c c' : Config} {x : Command} {scope : Scope}
    (h : Step c (.command x scope) c') : c'.control = .ended (x.run scope c.session).1 := by
  generalize hd : Deed.command x scope = d at h
  cases h with
  | move h =>
    cases h with
    | start => exact Task.next_of_command hd.symm
    | @resume o q sequels s => rcases q.deed_resume s o with hq | hq <;> cases hd.trans hq
  | read | refuse | finish => cases hd

/-! ### Rows of steps -/

namespace Steps

variable {c c' c'' : Config} {ds es : List Deed}

/-- **The session is what the deeds have made of it.** -/
theorem session_eq (h : Steps c ds c') : c'.session = c.session.after ds := by
  induction h with
  | refl => rfl
  | snoc _ hstep ih =>
    rw [hstep.session_eq, ih, Session.after_append, Session.after_cons, Session.after_nil]

theorem trans (h : Steps c ds c') (h' : Steps c' es c'') : Steps c (ds ++ es) c'' := by
  induction h' with
  | refl => rwa [List.append_nil]
  | snoc _ hstep ih =>
    rw [← List.append_assoc]
    exact .snoc ih hstep

theorem cons {d : Deed} (hstep : Step c d c') (h : Steps c' ds c'') : Steps c (d :: ds) c'' :=
  (Steps.snoc .refl hstep).trans h

/-- What holds at the beginning and is kept by every step holds all along, and what it says of the
next deed holds of all deeds. -/
theorem invariant {p : Config → Prop} {q : Deed → Prop}
    (hstep : ∀ {c d c'}, p c → Step c d c' → q d ∧ p c') (h : Steps c ds c') (hc : p c) :
    (∀ d ∈ ds, q d) ∧ p c' := by
  induction h with
  | refl => exact ⟨List.forall_mem_nil q, hc⟩
  | snoc _ hnext ih =>
    obtain ⟨hds, hbefore⟩ := ih
    obtain ⟨hd, hbehind⟩ := hstep hbefore hnext
    exact ⟨List.forall_mem_append.mpr ⟨hds, List.forall_mem_singleton.mpr hd⟩, hbehind⟩

end Steps

end ExScript
