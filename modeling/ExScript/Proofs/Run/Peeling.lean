import ExScript.Proofs.Run.Assignment
import ExScript.Proofs.Run.Elsewhere
import ExScript.Proofs.Run.Signals

/-!
# One pass of a loop, written out

A loop does the same as its first pass in front of the loop with one pass less. For a `:for` over
constants the first pass is an assignment and the body; for a `:while` it is an `:if` with the body
in it. The two ways are told apart by the place of the first pass: it stands in the loop or in front
of it, and only `:break` and `:continue` have an eye for that.

So this is a matter of runs without signals (`Proofs/Run/Calm.lean`). The body is the same body in
another place, and what is done behind it is in both cases the rest of the loop; a failure ends
both. That there is no third way for it to end is because no signal gets to the top of a script.

## From texts to runs

The statement is about texts, and the two texts have to be read first. For this the lines around a
body are needed (`Proofs/Script/LoopLines.lean`): a body that can be read on its own can be read
between them, and gives the same statements there. What comes out is a loop over one list and a loop
over another, or a loop and a choice with a loop in it, and the same body `xs` in all of them.

* Constants are evaluated to the same values whatever the variables are. That is why a `:for` is
  asked to run over constants: the list is evaluated once, in front of the body, and the shorter
  list behind it.
* The condition of a `:while` is evaluated at the same point of the run in both scripts, so it can
  be any expression. If it cannot be read behind `while` it cannot be read behind `if`, for the same
  reason.
* The body has to begin with a line that goes on no other line, otherwise it would become a part of
  the line in front of it.

## Main definitions

* `Script.IsCalm` — neither `:break` nor `:continue` is run on the way through a script
* `Script.Ends` — the result of a script and the session it leaves
* `Script.Agree` — one script is as good as another

## Main results

* `Config.Agrees.forLoop`, `Config.Agrees.whileLoop` — the first pass of a loop
* `Script.agree_peeled` — a loop and its first pass in front of it
-/

namespace ExScript

/-! ### The body of a script

In front of the loop the body stands at the top, where no signal can come out of it; so none comes
out of it in the loop either, if the run is calm. -/

namespace Config.Agrees

section Scripts

variable {text : String} {xs : List Stmt} {qs qs' : List Sequel} {s : Session}

/-- At the top of a script no statements end with a signal. -/
theorem not_isSignal_of_leads {o : Outcome} {s' : Session} (hparse : Script.parse text = .ok xs)
    (h : Leads ⟨.run .top (.body xs), [], s⟩ ⟨.ended o, [], s'⟩) : ¬o.IsSignal := by
  obtain ⟨t, ht⟩ := leads_iff_runs.mp h
  have run : Run.withBudget maxExpansions (Stmt.execAll (expand maxExpansions) xs .root)
      ⟨t.passes, s⟩ = (some o, ⟨0, s'⟩) :=
    (withBudget_run_iff 0 (.body xs)).mpr ⟨t, ht, by simp⟩
  exact fun ho => (Script.execAll_signals hparse maxExpansions).withBudget maxExpansions run ho

/-- **What can be run as a script is the same elsewhere**, if what is done behind it is the same for
success and for failure. -/
theorem elsewhere (hparse : Script.parse text = .ok xs) (scope scope' : Scope)
    (hfinished : ∀ s', Agrees ⟨.ended .finished, qs, s'⟩ ⟨.ended .finished, qs', s'⟩)
    (hfailed : ∀ e s', Agrees ⟨.ended (.failed e), qs, s'⟩ ⟨.ended (.failed e), qs', s'⟩) :
    Agrees ⟨.run ⟨maxExpansions, 0, scope⟩ (.body xs), qs, s⟩
      ⟨.run ⟨maxExpansions, 0, scope'⟩ (.body xs), qs', s⟩ := by
  have hx : Task.NoHooks (.body xs) := Script.allHooks_of_parse _ hparse
  refine (place scope scope' hx s).followedBy fun hcalm o s' hleads => ?_
  -- only at the top is it known that there is no signal
  have top := ((place scope .root hx s).ends hcalm o s').mp hleads
  rcases Outcome.eq_finished_or_failed (not_isSignal_of_leads hparse top) with rfl | ⟨e, rfl⟩
  · exact hfinished s'
  · exact hfailed e s'

end Scripts

/-! ### Loops

Both proofs go forwards from the loop and backwards from the other script until they meet at the
body, which stands in the loop in one of them and in front of it in the other. -/

section Loops

variable {text : String} {xs : List Stmt} {s : Session}

/-- **The first pass of a `:for`**: the variable gets its first value, and behind the body the loop
runs over the others. -/
theorem forLoop {x : String} {e e' : Expression} {v : Value} {values : List Value}
    (hparse : Script.parse text = .ok xs) (hitems : itemsOf e s.vars = .ok (v :: values))
    (hothers : ∀ vars, itemsOf e' vars = .ok values) :
    Agrees ⟨.run .top (.body [.forLoop x e xs]), [], s⟩
      ⟨.run .top (.body (xs ++ [.forLoop x e' xs])), [], { s with vars := s.vars.set x v }⟩ := by
  have items {e : Expression} {values : List Value} {s : Session}
      (he : itemsOf e s.vars = .ok values) :
      Agrees ⟨.run .top (.body [.forLoop x e xs]), [], s⟩
        ⟨.run .top (.each x xs values), [], s⟩ := by
    have step : (Task.stmt (.forLoop x e xs)).start .top s =
        { next := .run .top (.each x xs values) } := by
      simp only [Task.start, he]
    exact single.trans (start_eq step rfl)
  have pass : Agrees ⟨.run .top (.each x xs (v :: values)), [], s⟩
      ⟨.run (Site.top.enter .loop) (.body xs), [.each .top x xs values],
        { s with vars := s.vars.set x v }⟩ :=
    .start rfl
  have rest (s' : Session) : Agrees ⟨.ended .finished, [.each .top x xs values], s'⟩
      ⟨.run .top (.each x xs values), [], s'⟩ :=
    .resume ..
  have fails (e : Error) (s' : Session) : Agrees ⟨.ended (.failed e), [.each .top x xs values], s'⟩
      ⟨.ended (.failed e), [], s'⟩ :=
    .resume ..
  refine (items hitems).trans (pass.trans (Agrees.trans ?_ (append xs _ [] _).symm))
  refine elsewhere hparse _ _ (fun s' => ?_) fun e s' => ?_
  · exact (rest s').trans (next.trans (items (hothers s'.vars))).symm
  · exact (fails e s').trans (passOver (by simp)).symm

/-- **The first pass of a `:while`** is a choice: if the condition holds then the body is run, and
behind it the loop. -/
theorem whileLoop {c : Condition} (hc : c.AllHooks fun _ => False)
    (hparse : Script.parse text = .ok xs) (s : Session) :
    Agrees ⟨.run .top (.body [.whileLoop c xs]), [], s⟩
      ⟨.run .top (.body [.choose [(c, xs ++ [.whileLoop c xs])] none]), [], s⟩ := by
  refine single.trans (Agrees.trans ?_ single.symm)
  -- The condition is asked once in both scripts. Only if it holds there is a body to compare.
  cases hcheck : (c.checkWithin Site.top.budget Site.top.scope s).1 with
  | error err =>
    have loop : (Task.stmt (.whileLoop c xs)).start .top s =
        { deed := .ask c .top, next := .ended (.failed err) } := by
      simp only [Task.start, hcheck]
    have choice : (Task.stmt (.choose [(c, xs ++ [.whileLoop c xs])] none)).start .top s =
        { deed := .ask c .top, next := .ended (.failed err) } := by
      simp only [Task.start, hcheck]
    exact (start_eq loop rfl).trans (start_eq choice rfl).symm
  | ok holds =>
    cases holds with
    | false =>
      have loop : (Task.stmt (.whileLoop c xs)).start .top s =
          { deed := .ask c .top, next := .ended .finished } := by
        simp only [Task.start, hcheck]
      have choice : (Task.stmt (.choose [(c, xs ++ [.whileLoop c xs])] none)).start .top s =
          { deed := .ask c .top, next := .run .top (.stmt (.choose [] none)) } := by
        simp only [Task.start, hcheck]
      have otherwise (s : Session) : Agrees ⟨.run .top (.stmt (.choose [] none)), [], s⟩
          ⟨.ended .finished, [], s⟩ :=
        .start rfl
      exact (start_eq loop rfl).trans ((start_eq choice rfl).trans (otherwise _)).symm
    | true =>
      have loop : (Task.stmt (.whileLoop c xs)).start .top s =
          { deed := .ask c .top
            next := .run (Site.top.enter .loop) (.body xs)
            sequels := [.passes .top c xs] } := by
        simp only [Task.start, hcheck]
      have choice : (Task.stmt (.choose [(c, xs ++ [.whileLoop c xs])] none)).start .top s =
          { deed := .ask c .top
            next := .run (Site.top.enter .conditional) (.body (xs ++ [.whileLoop c xs])) } := by
        simp only [Task.start, hcheck]
      have rest (s : Session) : Agrees ⟨.ended .finished, [.passes .top c xs], s⟩
          ⟨.run .top (.stmt (.whileLoop c xs)), [], s⟩ :=
        .resume ..
      have fails (e : Error) (s : Session) : Agrees ⟨.ended (.failed e), [.passes .top c xs], s⟩
          ⟨.ended (.failed e), [], s⟩ :=
        .resume ..
      have hx : Task.NoHooks (.stmt (.whileLoop c xs)) :=
        ⟨hc, Script.allHooks_of_parse _ hparse⟩
      refine (start_eq loop rfl).trans (Agrees.trans ?_ (start_eq choice rfl).symm)
      refine Agrees.trans ?_ (append xs _ [] _).symm
      refine elsewhere hparse _ _ (fun s' => ?_) fun e s' => ?_
      -- the loop behind the body stands in the choice, where it does the same as in front of it
      · exact (rest s').trans ((place _ _ hx s').trans (next.trans single).symm)
      · exact (fails e s').trans (passOver (by simp)).symm

end Loops

end Config.Agrees

namespace Script

/-! ### Scripts

What is true of configurations is said of scripts and of the function that runs them. The fuel is
not fixed, because one of the two scripts may need less of it: the first pass of a `:while` costs
nothing where it stands in an `:if`. -/

/-- Whether neither a `:break` nor a `:continue` is run on the way through a script, be it in the
script or in the text of a user command. -/
def IsCalm (text : String) (s : Session) : Prop :=
  ∀ body, parse text = .ok body → Config.Calm ⟨.run .top (.body body), [], s⟩

/-- The result of a script and the session it leaves, if there is fuel enough for it to end. -/
def Ends (text : String) (s : Session) (r : Except Error Unit) (s' : Session) : Prop :=
  ∃ fuel left, Machine.runScript ⟨fuel, s⟩ text = (some r, ⟨left, s'⟩)

/-- Whether one script is calm if the other is, and then they end with the same result and in the
same session, or neither of them ends. -/
structure Agree (text text' : String) (s : Session) : Prop where
  calm : IsCalm text s ↔ IsCalm text' s
  ends : IsCalm text s → ∀ r s', Ends text s r s' ↔ Ends text' s r s'

section Agree

variable {text text' : String} {xs ys : List Stmt} {s : Session}

/-- A script is calm if the machine is that has read it. -/
theorem isCalm_iff (hparse : parse text = .ok xs) :
    IsCalm text s ↔ Config.Calm ⟨.run .top (.body xs), [], s⟩ := by
  refine ⟨fun h => h xs hparse, fun h body hbody => ?_⟩
  cases hparse.symm.trans hbody
  exact h

/-- A script is calm if there are no user commands in it, no `:break` and no `:continue`. -/
theorem isCalm_of_isQuiet (s : Session)
    (h : (parse text).toOption.all fun xs => (Stmt.marksOfAll xs).all Mark.isQuiet) :
    IsCalm text s := by
  intro body hbody
  rw [hbody] at h
  have quiet : Task.IsQuiet (.body body) := List.all_eq_true.mp h
  exact .of_isQuiet quiet s

/-- A script that gives a result ends so. -/
theorem exists_ends {fuel : Nat} {r : Except Error Unit}
    (h : (Machine.runScript ⟨fuel, s⟩ text).1 = some r) : ∃ s', Ends text s r s' := by
  rcases hrun : Machine.runScript ⟨fuel, s⟩ text with ⟨r', left, s'⟩
  rw [hrun] at h
  obtain rfl : r' = some r := h
  exact ⟨s', fuel, left, hrun⟩

/-- How a script ends is told by how the machine comes to its end. -/
theorem ends_iff (hparse : parse text = .ok xs) {r : Except Error Unit} {s' : Session} :
    Ends text s r s' ↔ ∃ o s₁, Leads ⟨.run .top (.body xs), [], s⟩ ⟨.ended o, [], s₁⟩ ∧
      o.toExcept = r ∧ o.conclude s₁ = s' := by
  constructor
  · rintro ⟨fuel, left, hrun⟩
    obtain ⟨t, ht, -⟩ := runScript_iff.mp hrun
    cases ht with
    | unreadable hrefused => cases hparse.symm.trans hrefused
    | @ended body t o _ hbody hruns ho =>
      cases hparse.symm.trans hbody
      have conclude : o.conclude s' = s' := by
        cases o with
        | failed => cases ho
        | finished | leaveLoop | nextPass => rfl
      exact ⟨o, s', hruns.leads [], ho, conclude⟩
    | failed hbody hruns =>
      cases hparse.symm.trans hbody
      exact ⟨_, _, hruns.leads [], rfl, rfl⟩
  · rintro ⟨o, s₁, hleads, rfl, rfl⟩
    obtain ⟨t, ht⟩ := leads_iff_runs.mp hleads
    have ran : RunsScript text s t o.toExcept (o.conclude s₁) := by
      cases o with
      | failed => exact .failed hparse ht
      | finished | leaveLoop | nextPass => exact .ended hparse ht rfl
    exact ⟨t.passes, 0, runScript_iff.mpr ⟨t, ran, by simp⟩⟩

/-- Scripts agree if the machine does the same for both. -/
theorem Agree.of_parse (hparse : parse text = .ok xs) (hparse' : parse text' = .ok ys)
    (h : Config.Agrees ⟨.run .top (.body xs), [], s⟩ ⟨.run .top (.body ys), [], s⟩) :
    Agree text text' s := by
  refine ⟨?_, fun hcalm r s' => ?_⟩
  · rw [isCalm_iff hparse, isCalm_iff hparse']
    exact h.calm
  · rw [isCalm_iff hparse] at hcalm
    rw [ends_iff hparse, ends_iff hparse']
    simp only [h.ends hcalm]

/-- Scripts agree if they are refused for the same reason. -/
theorem Agree.of_refused {e : Error} (hparse : parse text = .error e)
    (hparse' : parse text' = .error e) : Agree text text' s := by
  have calm {text : String} (h : parse text = .error e) : IsCalm text s := by
    intro body hbody
    cases h.symm.trans hbody
  refine ⟨iff_of_true (calm hparse) (calm hparse'), fun _ r s' => ?_⟩
  simp only [Ends, Machine.runScript, hparse, hparse']

end Agree

/-! ### Loops over constants -/

section For

variable {x body first : String} {others : List String} {xs : List Stmt}

/-- A loop over constants and its first pass in front of it. -/
theorem agree_for (hx : Variables.isLegalName x.toList = true) (hbody : parse body = .ok xs)
    (hstart : StartsLine body) (h : ∀ t ∈ first :: others, Expression.IsConstant t)
    (s : Session) :
    Agree ("\n".intercalate (forLines x (Expression.listed (first :: others)) body))
      ("\n".intercalate (("let " ++ x ++ " = " ++ first) :: body ::
        forLines x (Expression.listed others) body)) s := by
  obtain ⟨hfirst, hothers⟩ := List.forall_mem_cons.mp h
  obtain ⟨e, v, source, hvalue, heval⟩ := IsSource.of_isConstant hfirst
  obtain ⟨values, hvalues⟩ := Expression.IsConstant.exists_values hothers
  obtain ⟨all, hall, evalAll⟩ := IsSource.listed h (.cons hvalue hvalues)
  obtain ⟨rest, hrest, evalRest⟩ := IsSource.listed hothers hvalues
  have loop := (derives_forLines hx hall hbody).single
  have hargument : (x ++ " = " ++ first).toList = x.toList ++ " = ".toList ++ first.toList := by
    simp
  have htext : ("let " ++ x ++ " = " ++ first).toList =
      "let".toList ++ ' ' :: (x ++ " = " ++ first).toList := by
    simp
  have peeled : Derives (.block (.simple (.assign (kept (x ++ " = " ++ first))) ::
      (xs ++ [.forLoop x rest xs]))) (rowsOf (("let " ++ x ++ " = " ++ first) :: body ::
        forLines x (Expression.listed others) body)) := by
    have hfront := IsFront.of_isLegalName hx " = ".toList (by decide) (by decide)
    obtain ⟨line, hline, hlet⟩ := reads_let hfront source hargument htext
    have behind := (derives_of_parse hbody).append (derives_forLines hx hrest hbody).single
    have rows := Derives.cons (.plain hlet) behind
    rwa [← hline, ← rowsOf_append, ← rowsOf_append] at rows
  have starts := startsLine_forLines hx hall hstart
  have startsRest := startsLine_forLines hx hrest hstart
  refine .of_parse (parse_intercalate (List.forall_mem_cons.mp starts).2 loop)
    (parse_intercalate (List.forall_mem_cons.mpr ⟨hstart, startsRest⟩) peeled) ?_
  have items : itemsOf all s.vars = .ok (v :: values) := by
    simp only [itemsOf, evalAll]
  have later (vars : Variables) : itemsOf rest vars = .ok values := by
    simp only [itemsOf, evalRest]
  have assigned : (Command.assign (kept (x ++ " = " ++ first))).run Site.top.scope s =
      (.finished, { s with vars := s.vars.set x v }) := by
    have written : Command.Assigns (x ++ " = " ++ first) x .set e :=
      Command.assigns_written ['='] hx (fun _ => rfl) source.parse_kept (by simp)
    rw [Command.run_assign_kept]
    exact (Command.run_assign_eq_finished_iff written).mpr ⟨v, heval s.vars, rfl⟩
  exact (Config.Agrees.forLoop hbody items later).trans (Config.Agrees.command rfl assigned).symm

end For

/-! ### Loops with a condition -/

section While

variable {condition body : String} {e : Expression} {xs : List Stmt}

/-- A loop with a condition and its first pass in front of it. -/
theorem agree_while (hparse : Expression.parse condition = .ok e)
    (hsingle : '\n' ∉ condition.toList) (hbody : parse body = .ok xs) (hstart : StartsLine body)
    (s : Session) :
    Agree ("\n".intercalate (whileLines condition body))
      ("\n".intercalate (("if " ++ condition) ::
        (body :: whileLines condition body ++ ["endif"]))) s := by
  have starts := startsLine_whileLines hparse hsingle hstart
  have startsBody := (List.forall_mem_cons.mp starts).2
  have startsPeeled : ∀ t ∈ body :: whileLines condition body ++ ["endif"], StartsLine t := by
    have last : StartsLine "endif" := startsLine_of_word isWritten_endif
    simpa [hstart, last, or_imp, forall_and] using starts
  cases hcondition : Expression.parse (trimmed condition) with
  | error err =>
    obtain ⟨line, argument, hline, hkeyword, hargument, -⟩ := hasKeyword_while hparse hsingle
    obtain ⟨line', argument', hline', hkeyword', hargument', -⟩ := hasKeyword_if hparse hsingle
    have refused := readLine_of_condition (.inl rfl) hkeyword (hargument ▸ hcondition)
    have refused' := readLine_of_condition (.inr rfl) hkeyword' (hargument' ▸ hcondition)
    exact .of_refused (parse_of_refused hline refused startsBody)
      (parse_of_refused hline' refused' startsPeeled)
  | ok c =>
    have loop := (derives_whileLines hparse hsingle hcondition hbody).single
    have inner : Derives (.block (xs ++ [.whileLoop (.expression c) xs]))
        (rowsOf (body :: whileLines condition body)) := by
      have rows := (derives_of_parse hbody).append loop
      rwa [← rowsOf_append] at rows
    have peeled := (derives_if hparse hsingle hcondition inner).single
    have hc : Condition.AllHooks (fun _ => False) (.expression c) := trivial
    exact .of_parse (parse_intercalate startsBody loop) (parse_intercalate startsPeeled peeled)
      (Config.Agrees.whileLoop hc hbody s)

end While

/-! ### Loops -/

/-- **A loop does the same as its first pass in front of it.** Let the body be a script whose first
line goes on no other line. A loop over constants is as good as an assignment of the first constant,
the body, and the loop over the others; and a loop with a condition is as good as an `:if` with this
condition in which the body and the loop stand. If neither `:break` nor `:continue` is run in one of
the two scripts then it is not run in the other, and they end with the same result and in the same
session, with the same messages; or neither of them ends. -/
theorem agree_peeled {body : String} {xs : List Stmt} (hbody : parse body = .ok xs)
    (hstart : ∀ line ∈ (Text.lines body.toList).head?, continuesLine line = false)
    (s : Session) :
    (∀ (x first : String) (others : List String), Variables.isLegalName x.toList = true →
      (∀ text ∈ first :: others, Expression.IsConstant text) →
        Agree
          ("\n".intercalate
            ["for " ++ x ++ " in " ++ Expression.listed (first :: others), body, "endfor"])
          ("\n".intercalate
            ["let " ++ x ++ " = " ++ first, body,
              "for " ++ x ++ " in " ++ Expression.listed others, body, "endfor"]) s) ∧
      ∀ (condition : String) (e : Expression), Expression.parse condition = .ok e →
        '\n' ∉ condition.toList →
          Agree ("\n".intercalate ["while " ++ condition, body, "endwhile"])
            ("\n".intercalate
              ["if " ++ condition, body, "while " ++ condition, body, "endwhile", "endif"]) s :=
  ⟨fun _ _ _ hx h => agree_for hx hbody hstart h s, fun _ _ hparse hsingle =>
    agree_while hparse hsingle hbody hstart s⟩

/-- A session in which `n` is one. -/
def countingSession : Session :=
  { vars := Variables.empty.set "n" (.number 1) }

/-- A body that changes the variable. -/
def countingBody : String :=
  "echo n\nlet n .= 1"

/-- A loop over a text with a bar in it and a list, and a loop that counts. -/
theorem agree_peeled_counting :
    (∃ s',
      Ends ("\n".intercalate ["for n in ['a|b', [2, \"q\"]]", countingBody, "endfor"])
          countingSession (.ok ()) s' ∧
        Ends ("\n".intercalate
            ["let n = 'a|b'", countingBody, "for n in [[2, \"q\"]]", countingBody, "endfor"])
          countingSession (.ok ()) s') ∧
      ∃ s',
        Ends ("\n".intercalate ["while n < 99", countingBody, "endwhile"])
            countingSession (.ok ()) s' ∧
          Ends ("\n".intercalate
              ["if n < 99", countingBody, "while n < 99", countingBody, "endwhile", "endif"])
            countingSession (.ok ()) s' := by
  have readable : (parse countingBody).isOk ∧ (Expression.parse "n < 99").isOk := by
    decide +kernel
  obtain ⟨xs, hbody⟩ := exists_eq_ok_of_isOk readable.1
  obtain ⟨e, hcondition⟩ := exists_eq_ok_of_isOk readable.2
  have seam : ∀ line ∈ (Text.lines countingBody.toList).head?, continuesLine line = false := by
    decide +kernel
  have text : Expression.IsConstant "'a|b'" :=
    .of_isLiteral (by decide) (by decide) (by decide +kernel)
  have list : Expression.IsConstant "[2, \"q\"]" :=
    .of_isLiteral (by decide) (by decide) (by decide +kernel)
  obtain ⟨constants, conditions⟩ := agree_peeled hbody seam countingSession
  constructor
  · have ended : (Machine.runScript ⟨9, countingSession⟩ ("\n".intercalate
        ["for n in ['a|b', [2, \"q\"]]", countingBody, "endfor"])).1 = some (.ok ()) := by
      decide +kernel
    obtain ⟨s', hs'⟩ := exists_ends ended
    have agree := constants "n" "'a|b'" ["[2, \"q\"]"] (by decide) (by simp [text, list])
    exact ⟨s', hs', (agree.ends (isCalm_of_isQuiet _ (by decide +kernel)) _ _).mp hs'⟩
  · have ended : (Machine.runScript ⟨9, countingSession⟩ ("\n".intercalate
        ["while n < 99", countingBody, "endwhile"])).1 = some (.ok ()) := by
      decide +kernel
    obtain ⟨s', hs'⟩ := exists_ends ended
    have agree := conditions "n < 99" e hcondition (by decide)
    exact ⟨s', hs', (agree.ends (isCalm_of_isQuiet _ (by decide +kernel)) _ _).mp hs'⟩

end Script

end ExScript
