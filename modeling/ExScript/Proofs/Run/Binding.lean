import ExScript.Proofs.Expr.VariableName
import ExScript.Proofs.Run.Change
import ExScript.Proofs.Run.Course
import ExScript.Proofs.Run.Scripted

/-!
# Which names get bound

A variable gets its value from a `:let`, from a native handler, or from a `:for`, which binds it to
one item after the other. A `:let` asks whether the name is legal, as `:unlet` does. A `:for` does
not: it takes the word in front of its `in` for a name, whatever the word is made of.

So where there are no handlers, a name that is bound is legal unless a `:for` has bound it. Those
that are legal can be used: an expression can read the variable, and an `:unlet` takes it away. The
others nothing takes away, so what a loop leaves bound under such a name is there for the rest of
the session.

Handlers are left out because a handler is written in the program and not in a script: it may set a
variable of any name, and of that nothing can be known. Nothing in a script registers one, so a
session that begins without handlers stays without them.

The session that is looked at may be any one on the way, in the middle of a script too. What is said
of it goes back over all that has been run, so it is proved of rows of steps, by induction from the
end: a name that is bound was bound by the last step or before it, and its value is the one that the
latest `:for` with that name has given it.

## Main definitions

* `Config.Binds` — a pass of a `:for` is about to bind its variable
* `Config.NoHandler` — no handler is run, waited for or registered

## Main results

* `Deed.binding` — where a deed can have bound a name
* `Step.binds_of_assign` — without handlers it is a `:for` that binds a name outside of a `:let`
* `Steps.keeps_illegal` — a name that is not legal stays bound
* `bound_legal_or_loop` — the names that are bound in a session
-/

namespace ExScript

open Variables

/-! ### What binds a name

Variables are kept in one table under their bare names. The deeds of a run are the only changes of
it, and two of them bind: the `:let` that checks the name, and the one that does not. -/

/-- Behind a variable was set, a name is bound to what it was set to, or as it was before. -/
theorem Variables.eq_or_of_set {vars : Variables} {name key : String} {v w : Value}
    (h : (vars.set name w).table.get? key = some v) :
    key = bareName name ∧ w = v ∨ vars.table.get? key = some v := by
  rw [Variables.set, Table.get?_insert] at h
  split at h
  next hkey => exact .inl ⟨hkey, Option.some.inj h⟩
  next => exact .inr h

namespace Deed

variable {d : Deed} {s : Session} {key : String} {v : Value}

/-- Where a name is bound behind a deed, it was so before, or it is legal, or the deed has bound it
without a `:let`. -/
theorem binding (h : (d.apply s).vars.table.get? key = some v) :
    s.vars.table.get? key = some v ∨ IsBareName key.toList ∨
      ∃ name, d = .assign name v ∧ bareName name = key := by
  have change := d.change s
  generalize d.apply s = s' at change h
  cases change with
  | none hs => exact .inl (hs.vars ▸ h)
  | delete | write | leave | define | erase | clear => exact .inl h
  | @set argument scope name op source w hread =>
    rcases eq_or_of_set h with ⟨rfl, -⟩ | h
    · exact .inr (.inl (isLegalName_iff.mp (isLegalName_of_readAssignment hread)))
    · exact .inl h
  | @unset argument scope names hlegal =>
    rw [table_get?_eraseAll] at h
    split at h
    · cases h
    · exact .inl h
  | @bind name w =>
    rcases eq_or_of_set h with ⟨rfl, rfl⟩ | h
    · exact .inr (.inr ⟨name, rfl, rfl⟩)
    · exact .inl h

/-- Only legal names are taken away. -/
theorem keeps_illegal (hillegal : ¬IsBareName key.toList)
    (hkey : (s.vars.table.get? key).isSome) : ((d.apply s).vars.table.get? key).isSome := by
  have change := d.change s
  generalize d.apply s = s' at change
  cases change with
  | none hs => exact hs.vars ▸ hkey
  | delete | write | leave | define | erase | clear => exact hkey
  | set | bind =>
    rw [Variables.set, Table.get?_insert]
    split
    · rfl
    · exact hkey
  | @unset argument scope names hlegal =>
    have hkept : key ∉ names.map bareName := by
      intro hmem
      obtain ⟨name, hname, rfl⟩ := List.mem_map.mp hmem
      exact hillegal (isLegalName_iff.mp (hlegal name hname))
    rw [table_get?_eraseAll, if_neg hkept]
    exact hkey

end Deed

/-! ### Runs without handlers

The deed that does not check is used by handlers and by loops. To see that it was a loop one has to
know that no handler is anywhere: not in the control, not among those that wait for the end of a
text they run, and not in the registry. -/

/-- Whether a handler is about to be run. -/
def Control.IsHandler : Control → Prop
  | .run _ (.handler _) => True
  | _ => False

/-- Whether a handler goes on. -/
def Sequel.IsHandler : Sequel → Prop
  | .handler _ _ => True
  | _ => False

namespace Config

/-- Whether a pass of a `:for` is about to begin, for which the variable gets a value. -/
def Binds (c : Config) (name : String) (v : Value) : Prop :=
  ∃ site xs values, c.control = .run site (.each name xs (v :: values))

/-- Whether no handler is run, waited for or registered. -/
structure NoHandler (c : Config) : Prop where
  control : ¬c.control.IsHandler
  sequels : ∀ q ∈ c.sequels, ¬q.IsHandler
  commands : c.session.commands.OnlyScripts

end Config

/-- A deed registers no handler. -/
theorem Deed.onlyScripts_apply {d : Deed} {s : Session} (h : s.commands.OnlyScripts) :
    (d.apply s).commands.OnlyScripts := by
  have change := d.change s
  generalize d.apply s = s' at change
  cases change with
  | none hs => exact hs.commands ▸ h
  | delete | write | leave | set | unset | bind => exact h
  | define => exact h.define _ _ _
  | erase herase => exact h.erase herase
  | clear => exact .empty

/-- A task that is no handler leads to none where none is registered. -/
theorem Task.start_noHandler {site : Site} {s : Session} {task : Task}
    (htask : ¬(Control.run site task).IsHandler) (hs : s.commands.OnlyScripts) :
    ¬(task.start site s).next.IsHandler ∧ ∀ q ∈ (task.start site s).sequels, ¬q.IsHandler := by
  revert htask
  fun_cases Task.start site s task with
  | case22 name argument hcall budget hb inside n he => exact absurd he hs.expansion_ne_handler
  | case25 | case26 | case27 | case28 | case29 | case30 | case31 =>
    exact fun htask => absurd trivial htask
  | case7 | case16 | case18 | case24 =>
    exact fun _ => ⟨id, List.forall_mem_singleton.mpr id⟩
  | _ => exact fun _ => ⟨id, List.forall_mem_nil _⟩

/-- Behind the end of a task only a handler that waited for it goes on. -/
theorem Sequel.resume_noHandler {s : Session} {o : Outcome} {q : Sequel} (hq : ¬q.IsHandler) :
    ¬(q.resume s o).next.IsHandler ∧ (q.resume s o).sequels = [] := by
  cases q with
  | body => cases o <;> exact ⟨id, rfl⟩
  | passes | each =>
    rw [Sequel.resume]
    split <;> exact ⟨id, rfl⟩
  | absorb => exact ⟨id, rfl⟩
  | handler => exact absurd trivial hq

/-- A task that begins by giving a variable a value is a pass of a `:for`, unless it is a
handler. -/
theorem Task.each_of_assign {site : Site} {s : Session} {task : Task} {name : String} {v : Value}
    (htask : ¬(Control.run site task).IsHandler) (h : (task.start site s).deed = .assign name v) :
    ∃ xs values, task = .each name xs (v :: values) := by
  revert h htask
  fun_cases Task.start site s task with
  | case18 name xs v values =>
    rintro - ⟨⟩
    exact ⟨xs, values, rfl⟩
  | case28 => exact fun htask => absurd trivial htask
  | _ => rintro - ⟨⟩

namespace Step

variable {c c' : Config} {d : Deed}

/-- Without handlers at one step there are none at the next. -/
theorem noHandler (h : Step c d c') (hc : c.NoHandler) : c'.NoHandler := by
  have hcommands : c'.session.commands.OnlyScripts := by
    rw [h.session_eq]
    exact Deed.onlyScripts_apply hc.commands
  obtain ⟨hcontrol, hsequels, hscripts⟩ := hc
  cases h with
  | move h =>
    cases h with
    | start =>
      obtain ⟨hnext, hlater⟩ := Task.start_noHandler hcontrol hscripts
      exact ⟨hnext, List.forall_mem_append.mpr ⟨hlater, hsequels⟩, hcommands⟩
    | @resume o q sequels s =>
      obtain ⟨hq, hsequels⟩ := List.forall_mem_cons.mp hsequels
      obtain ⟨hnext, hnone⟩ := Sequel.resume_noHandler (s := s) (o := o) hq
      refine ⟨hnext, ?_, hcommands⟩
      rw [Config.turn, hnone]
      exact hsequels
  | read | refuse | finish => exact ⟨id, List.forall_mem_nil _, hcommands⟩

/-- **Without handlers it is a `:for` that binds a name outside of a `:let`.** -/
theorem binds_of_assign {name : String} {v : Value} (h : Step c (.assign name v) c')
    (hc : c.NoHandler) : c.Binds name v := by
  have hcontrol := hc.control
  generalize hd : Deed.assign name v = d at h
  cases h with
  | move h =>
    cases h with
    | @start site =>
      obtain ⟨xs, values, rfl⟩ := Task.each_of_assign hcontrol hd.symm
      exact ⟨site, xs, values, rfl⟩
    | @resume o q sequels s => rcases q.deed_resume s o with hq | hq <;> cases hd.trans hq
  | read | refuse | finish => cases hd

end Step

/-! ### Rows of steps

Both lemmas about a name are by induction on the row. The last deed is either the one that has bound
the name as it is bound, or it can be taken off the end. -/

namespace Steps

variable {c c' : Config} {ds : List Deed} {key : String} {v : Value}

theorem noHandler (h : Steps c ds c') (hc : c.NoHandler) : c'.NoHandler := by
  have step {c d c'} (hc : c.NoHandler) (hstep : Step c d c') : True ∧ c'.NoHandler :=
    ⟨trivial, hstep.noHandler hc⟩
  exact (h.invariant step hc).2

/-- Where a name is bound, it was so at the beginning, or it is legal, or a `:for` on the way has
bound it to what it is bound to. -/
theorem binding (h : Steps c ds c') (hc : c.NoHandler)
    (hkey : c'.session.vars.table.get? key = some v) :
    c.session.vars.table.get? key = some v ∨ IsBareName key.toList ∨
      ∃ before c'' name, Steps c before c'' ∧ c''.Binds name v ∧
        before ++ [.assign name v] <+: ds ∧ bareName name = key := by
  induction h with
  | refl => exact .inl hkey
  | @snoc ds c₁ d c₂ hsteps hstep ih =>
    -- what the last deed has not bound was bound before it, to the same value
    rw [hstep.session_eq] at hkey
    rcases Deed.binding hkey with hbefore | hlegal | ⟨name, rfl, hname⟩
    · rcases ih hbefore with hstart | hlegal | ⟨before, c'', name, hfirst, hbinds, hprefix, hname⟩
      · exact .inl hstart
      · exact .inr (.inl hlegal)
      · exact .inr (.inr ⟨before, c'', name, hfirst, hbinds, hprefix.trans (List.prefix_append _ _),
          hname⟩)
    · exact .inr (.inl hlegal)
    · have hbinds := hstep.binds_of_assign (hsteps.noHandler hc)
      exact .inr (.inr ⟨ds, c₁, name, hsteps, hbinds, List.prefix_rfl, hname⟩)

/-- **A name that is not legal stays bound.** -/
theorem keeps_illegal (h : Steps c ds c') (hillegal : ¬IsBareName key.toList)
    (hkey : (c.session.vars.table.get? key).isSome) :
    (c'.session.vars.table.get? key).isSome := by
  induction h with
  | refl => exact hkey
  | snoc _ hstep ih =>
    rw [hstep.session_eq]
    exact Deed.keeps_illegal hillegal ih

end Steps

/-- **A name that is bound is legal unless a `:for` has bound it.** Take a session on the way of any
scripts from a session without variables and without native handlers, and a name that is bound in
it. Either the name is legal, and then an expression can read the variable and an `:unlet` takes it
away; or it is not, and then a `:for` of these scripts has bound it to the value it has. -/
theorem bound_legal_or_loop {s : Session} {c : Config} {ds : List Deed}
    (h : Steps (.idle s) ds c) (hvars : s.vars = .empty) (hscripts : s.commands.OnlyScripts)
    {key : String} {v : Value} (hkey : c.session.vars.table.get? key = some v) :
    IsBareName key.toList ∧
        (∃ e, Expression.parse key = .ok e ∧ e.eval c.session.vars = .ok v) ∧
        (∀ scope, (Command.unassign key).run scope c.session =
          (.finished, { c.session with vars := c.session.vars.erase key })) ∨
      ¬IsBareName key.toList ∧
        ∃ before c' name, Steps (.idle s) before c' ∧ c'.Binds name v ∧
          before ++ [.assign name v] <+: ds ∧ bareName name = key := by
  by_cases hname : IsBareName key.toList
  · have hget : c.session.vars.get? key = some v := by
      rw [Variables.get?, hname.bareName_eq, hkey]
    have heval : (⟨key, .var key⟩ : Expression).eval c.session.vars = .ok v := by
      simp [Expression.eval, Expr.eval, hget]
    exact .inl ⟨hname, ⟨_, Expression.parse_bareName hname, heval⟩,
      Command.run_unassign_bareName hname hget⟩
  · have hstart : (Config.idle s).NoHandler := ⟨id, List.forall_mem_nil _, hscripts⟩
    rcases h.binding hstart hkey with hbefore | hlegal | hloop
    · have hnone : s.vars.table.get? key = some v := hbefore
      rw [hvars] at hnone
      cases hnone
    · exact absurd hlegal hname
    · exact .inr ⟨hname, hloop⟩

/-- A `:let` and a `:for` bind a name each, and only the one of the `:let` is legal. -/
theorem bound_legal_or_loop_twoNames :
    ∃ (m : Machine) (ds before : List Deed) (c : Config) (name : String),
      Machine.runScript ⟨0, {}⟩ "let g:a = 1\nfor 1x in [2]\nendfor" = (some (.ok ()), m) ∧
      (∃ e, Expression.parse "a" = .ok e ∧ e.eval m.session.vars = .ok (.number 1)) ∧
      Steps (.idle {}) ds (.idle m.session) ∧ Steps (.idle {}) before c ∧
      c.Binds name (.number 2) ∧ before ++ [.assign name (.number 2)] <+: ds ∧
      bareName name = "1x" := by
  let script := "let g:a = 1\nfor 1x in [2]\nendfor"
  have hresult : (Machine.runScript ⟨0, {}⟩ script).1 = some (.ok ()) := by decide +kernel
  have hlet : (Machine.runScript ⟨0, {}⟩ script).2.session.vars.table.get? "a" =
      some (.number 1) := by
    decide +kernel
  have hfor : (Machine.runScript ⟨0, {}⟩ script).2.session.vars.table.get? "1x" =
      some (.number 2) := by
    decide +kernel
  obtain ⟨⟨r, m⟩, hrun⟩ : ∃ r, Machine.runScript ⟨0, {}⟩ script = r := ⟨_, rfl⟩
  rw [hrun] at hresult hlet hfor
  obtain rfl : r = some (.ok ()) := hresult
  obtain ⟨ds, hds⟩ := Machine.steps_of_runScript hrun
  have hlegal : IsBareName "a".toList := by decide
  have hillegal : ¬IsBareName "1x".toList := by decide
  rcases bound_legal_or_loop hds rfl .empty hlet with ⟨-, hread, -⟩ | ⟨hname, -⟩
  · rcases bound_legal_or_loop hds rfl .empty hfor with ⟨hname, -⟩ | ⟨-, before, c, name, hloop⟩
    · exact absurd hname hillegal
    · exact ⟨m, ds, before, c, name, hrun, hread, hds, hloop⟩
  · exact absurd hlegal hname

/-- A `:for` binds a name that is not legal, and no `:unlet` takes it away. -/
theorem loop_binds_illegal :
    ∃ m : Machine,
      Machine.runScript ⟨0, {}⟩ "for 1x in [1]\nendfor" = (some (.ok ()), m) ∧
      m.session.vars.table.get? "1x" = some (.number 1) ∧ ¬IsBareName "1x".toList ∧
      (Command.unassign "1x").run .root m.session =
        (.failed (.illegalVariableName "1x"), m.session) := by
  let script := "for 1x in [1]\nendfor"
  have hresult : (Machine.runScript ⟨0, {}⟩ script).1 = some (.ok ()) := by decide +kernel
  have hfor : (Machine.runScript ⟨0, {}⟩ script).2.session.vars.table.get? "1x" =
      some (.number 1) := by
    decide +kernel
  obtain ⟨⟨r, m⟩, hrun⟩ : ∃ r, Machine.runScript ⟨0, {}⟩ script = r := ⟨_, rfl⟩
  rw [hrun] at hresult hfor
  obtain rfl : r = some (.ok ()) := hresult
  refine ⟨m, hrun, hfor, by decide, ?_⟩
  rfl

end ExScript
