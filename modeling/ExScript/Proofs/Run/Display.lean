import ExScript.Proofs.Run.Course
import ExScript.Proofs.Run.Effect
import ExScript.Proofs.Script.Plain
import ExScript.Proofs.Script.Seam
import Mathlib.Data.List.Induction

/-!
# What the user is shown

What a run tells the user is shown in one of two ways: in a transcript of lines, or printed, each
message with a line feed behind it. Both ways show the same messages in the same order, so one
should think that the lines of the printed text are those of the transcript.

They are not always. A transcript cuts each message into lines as it is, and there is no line behind
a line break at the end. What is printed has a further line feed there, and so an empty line. An
empty message is the case that matters: it is printed as an empty line, and the transcript does not
show it at all. There is a second case: a carriage return at the end of a message is a part of its
last line, until a line feed is printed behind it.

The result does not stop at such examples. It says for which runs the two are the same, and the
condition is one on single messages: all of them end plainly. That it is necessary takes an
argument, because lines that are missing at one message might be made up for at another. They cannot
be: no message has fewer lines with a line feed behind it than without, so if the rows of all lines
are the same, the lines of each message are (`flatMap_eq_flatMap_iff`).

What the user was told before a run stays where it is, so the statement is about the events that
come behind those (`Steps.events_isPrefix`).

## Main definitions

* `textsOf` — the messages among some events, errors included
* `printed` — what is printed for some events, both streams together
* `Text.EndsPlainly` — a text that ends neither in a line break nor in a carriage return

## Main results

* `Text.lines_lineFeed_cases` — what a line feed at the end of a text does to its lines
* `Steps.events_isPrefix` — what the user was told is not taken back
* `shown_alike_iff` — the lines in a transcript, and those that are printed
* `emptyMessage_only_printed` — a message that is in one of them only
-/

namespace ExScript

/-! ### Lines of messages

What a line feed at the end of a text changes depends on the last line alone. The three cases are
the last line with something in it, the last line that is empty, and the one that ends in a carriage
return; only in the first nothing changes. -/

namespace Text

/-- Whether the last line of a text has something in it, and does not end in a carriage return. -/
def EndsPlainly (text : List Char) : Prop :=
  text ≠ [] ∧ text.getLast? ≠ some '\n' ∧ text.getLast? ≠ some '\r'

instance : DecidablePred EndsPlainly := fun text =>
  inferInstanceAs (Decidable (text ≠ [] ∧ text.getLast? ≠ some '\n' ∧ text.getLast? ≠ some '\r'))

/-- A text is its last line, which is empty behind a line feed, and what is in front of it. -/
theorem exists_lastLine (text : List Char) :
    ∃ front line, text = front ++ line ∧ '\n' ∉ line ∧ (front = [] ∨ ∃ a, front = a ++ ['\n']) := by
  induction text using List.reverseRecOn with
  | nil => exact ⟨[], [], rfl, List.not_mem_nil, .inl rfl⟩
  | append_singleton text c ih =>
    by_cases hc : c = '\n'
    · subst hc
      exact ⟨text ++ ['\n'], [], (List.append_nil _).symm, List.not_mem_nil, .inr ⟨text, rfl⟩⟩
    · obtain ⟨front, line, rfl, hline, hfront⟩ := ih
      refine ⟨front, line ++ [c], List.append_assoc front line [c], ?_, hfront⟩
      simpa [hline] using Ne.symm hc

/-- **What a line feed at the end of a text does to its lines.** It ends the last line. If that is
empty it becomes a line, and if it ends in a carriage return it is shorter then. -/
theorem lines_lineFeed_cases (text : List Char) :
    (EndsPlainly text ∧ lines (text ++ ['\n']) = lines text) ∨
      (¬EndsPlainly text ∧ lines (text ++ ['\n']) = lines text ++ [[]]) ∨
      (¬EndsPlainly text ∧ ∃ front line, lines text = front ++ [line ++ ['\r']] ∧
        lines (text ++ ['\n']) = front ++ [line]) := by
  obtain ⟨front, line, rfl, hline, hfront⟩ := exists_lastLine text
  obtain ⟨before, hbefore⟩ : ∃ before, ∀ rest, lines (front ++ rest) = before ++ lines rest := by
    rcases hfront with rfl | ⟨a, rfl⟩
    · exact ⟨[], fun rest => rfl⟩
    · exact ⟨(a.splitOnP (· == '\n')).map dropReturn, fun rest => by
        rw [List.append_assoc]
        exact lines_append a rest⟩
  have hended : lines (line ++ ['\n']) = [dropReturn line] := by
    rw [lines_append, splitOnP_of_single hline, lines_nil]
    rfl
  rw [List.append_assoc, hbefore, hbefore, hended]
  by_cases hempty : line = []
  · subst hempty
    refine .inr (.inl ⟨?_, by simp [dropReturn]⟩)
    rcases hfront with rfl | ⟨a, rfl⟩ <;> simp [EndsPlainly]
  · have hlast : (front ++ line).getLast? = line.getLast? :=
      List.getLast?_append_of_ne_nil front hempty
    rw [lines_of_single hempty hline]
    by_cases hreturn : line.getLast? = some '\r'
    · have hsplit : line = dropReturn line ++ ['\r'] :=
        (dropReturn_cases line).resolve_left fun h => dropReturn_eq_self_iff.mp h hreturn
      have hends : ¬EndsPlainly (front ++ line) := fun h => h.2.2 (hlast.trans hreturn)
      exact .inr (.inr ⟨hends, before, dropReturn line, by rw [← hsplit], rfl⟩)
    · have hplain : (front ++ line).getLast? ≠ some '\n' := by
        rw [hlast]
        exact fun h => hline (List.mem_of_getLast? h)
      exact .inl ⟨⟨List.append_ne_nil_of_right_ne_nil front hempty, hplain, hlast ▸ hreturn⟩, by
        rw [dropReturn_eq_self_iff.mpr hreturn]⟩

/-- No line is lost by it. -/
theorem length_lines_le (text : List Char) :
    (lines text).length ≤ (lines (text ++ ['\n'])).length := by
  rcases lines_lineFeed_cases text with ⟨-, h⟩ | ⟨-, h⟩ | ⟨-, front, line, h, h'⟩
  · rw [h]
  · simp [h]
  · simp [h, h']

/-- The lines stay the same exactly in the first case. -/
theorem lines_lineFeed_eq_iff {text : List Char} :
    lines text = lines (text ++ ['\n']) ↔ EndsPlainly text := by
  rcases lines_lineFeed_cases text with ⟨hplain, h⟩ | ⟨hplain, h⟩ | ⟨hplain, front, line, h, h'⟩
  · simp [hplain, h]
  · simp [hplain, h]
  · simp [hplain, h, h']

/-- Texts with a line feed behind each have the lines that each of them has. -/
theorem lines_flatMap (texts : List (List Char)) :
    lines (texts.flatMap fun text => text ++ ['\n']) =
      texts.flatMap fun text => lines (text ++ ['\n']) := by
  induction texts with
  | nil => exact lines_nil
  | cons text texts ih =>
    have hfirst := lines_append text []
    rw [lines_nil, List.append_nil] at hfirst
    rw [List.flatMap_cons, List.append_assoc, List.singleton_append, lines_append, ih,
      List.flatMap_cons, hfirst]

end Text

/-- Rows that are put together from parts, each at most as long as another one, are the same only if
all parts are. -/
theorem flatMap_eq_flatMap_iff {α β : Type} {f g : α → List β}
    (h : ∀ x, (f x).length ≤ (g x).length) {xs : List α} :
    xs.flatMap f = xs.flatMap g ↔ ∀ x ∈ xs, f x = g x := by
  have hlength (xs : List α) : (xs.flatMap f).length ≤ (xs.flatMap g).length := by
    induction xs with
    | nil => exact Nat.le_refl 0
    | cons x xs ih =>
      simp only [List.flatMap_cons, List.length_append]
      exact Nat.add_le_add (h x) ih
  induction xs with
  | nil => simp
  | cons x xs ih =>
    rw [List.flatMap_cons, List.flatMap_cons, List.forall_mem_cons]
    constructor
    · intro heq
      have htotal := congrArg List.length heq
      simp only [List.length_append] at htotal
      have hx := h x
      have hxs := hlength xs
      obtain ⟨hhead, htail⟩ := List.append_inj heq (by omega)
      exact ⟨hhead, ih.mp htail⟩
    · rintro ⟨hhead, htail⟩
      rw [hhead, ih.mpr htail]

/-! ### Two ways to show events

A transcript takes the events in one by one; a program that prints them puts text behind text. Both
are brought into one form: the texts of the events, and the lines of each of them. -/

/-- The texts of some events: the messages, and those of the errors. -/
def textsOf (events : List Event) : List String :=
  events.filterMap Event.text?

/-- What is printed for some events if both streams go to one place: each event when it comes. -/
def printed (events : List Event) : String :=
  String.join (events.map fun e => reportStream [e] ++ errorStream [e])

theorem textsOf_cons (e : Event) (events : List Event) :
    textsOf (e :: events) = e.text?.toList ++ textsOf events := by
  cases e <;> rfl

theorem Transcript.lines_add (t : Transcript) (e : Event) :
    (t.add e).lines = t.lines ++ e.text?.toList.flatMap linesOf := by
  cases e <;> simp [add, report, reportError, ring, Event.text?]

theorem lines_foldl_add (events : List Event) (t : Transcript) :
    (events.foldl Transcript.add t).lines = t.lines ++ (textsOf events).flatMap linesOf := by
  induction events generalizing t with
  | nil => exact (List.append_nil _).symm
  | cons e events ih =>
    rw [List.foldl_cons, ih, t.lines_add, textsOf_cons, List.flatMap_append, List.append_assoc]

/-- What is printed is each text with a line feed behind it. -/
theorem printed_eq (events : List Event) :
    printed events = String.join ((textsOf events).map (· ++ "\n")) := by
  rw [printed, ← String.toList_inj, String.toList_join, String.toList_join]
  induction events with
  | nil => rfl
  | cons e events ih =>
    rw [List.map_cons, List.flatMap_cons, ih, textsOf_cons, List.map_append, List.flatMap_append]
    cases e <;> simp [reportStream, errorStream, Event.text?]

/-- Behind each text the line is ended, so no line goes over from one to the next. -/
theorem linesOf_printed (events : List Event) :
    linesOf (printed events) =
      (textsOf events).flatMap fun text => linesOf (text ++ "\n") := by
  have hchars : (printed events).toList =
      ((textsOf events).map String.toList).flatMap fun text => text ++ ['\n'] := by
    rw [printed_eq, String.toList_join]
    simp [List.flatMap_map]
  rw [linesOf, hchars, Text.lines_flatMap, List.flatMap_map, List.map_flatMap]
  simp [linesOf]

theorem length_linesOf_le (text : String) :
    (linesOf text).length ≤ (linesOf (text ++ "\n")).length := by
  simpa [linesOf] using Text.length_lines_le text.toList

theorem linesOf_eq_iff {text : String} :
    linesOf text = linesOf (text ++ "\n") ↔ Text.EndsPlainly text.toList := by
  rw [linesOf, linesOf, List.map_inj_right fun _ _ => String.ofList_injective, String.toList_append]
  exact Text.lines_lineFeed_eq_iff

/-! ### Runs

Events are put behind those that are there, by each deed and so by a whole run. -/

theorem Effect.events_isPrefix {s s' : Session} (h : Effect s s') : s.events <+: s'.events := by
  obtain ⟨texts, htexts⟩ := h.reports
  exact ⟨_, htexts.symm⟩

theorem Session.events_isPrefix_tell (s : Session) (e : Event) : s.events <+: (s.tell e).events :=
  ⟨[e], (s.events_tell e).symm⟩

theorem Outcome.events_isPrefix_conclude (o : Outcome) (s : Session) :
    s.events <+: (o.conclude s).events := by
  cases o with
  | failed e => exact (s.events_isPrefix_tell _).trans (Session.events_isPrefix_tell _ _)
  | finished | leaveLoop | nextPass => exact List.prefix_rfl

theorem events_isPrefix_absorb (o : Outcome) (s : Session) :
    s.events <+: (absorb o s).2.events := by
  rw [absorb.eq_def]
  split
  · exact List.prefix_rfl
  · exact s.events_isPrefix_tell _
  · exact List.prefix_rfl

/-- A deed tells the user something, or nothing. -/
theorem Deed.events_isPrefix (d : Deed) (s : Session) : s.events <+: (d.apply s).events := by
  cases d with
  | nothing | read | assign => exact List.prefix_rfl
  | command c scope => exact (c.run_effect scope s).events_isPrefix
  | hook h site => exact (h.runWithin_effect site.budget site.scope s).events_isPrefix
  | ask c site => exact (Condition.effect_of_checkWithin rfl).events_isPrefix
  | tell e => exact s.events_isPrefix_tell e
  | absorb o => exact events_isPrefix_absorb o s
  | finish o => exact o.events_isPrefix_conclude s
  | refuse text cause => exact Outcome.events_isPrefix_conclude _ s

/-- What the user was told is not taken back. -/
theorem Steps.events_isPrefix {c c' : Config} {ds : List Deed} (h : Steps c ds c') :
    c.session.events <+: c'.session.events := by
  induction h with
  | refl => exact List.prefix_rfl
  | snoc _ hstep ih =>
    rw [hstep.session_eq]
    exact ih.trans (Deed.events_isPrefix _ _)

/-- **When both ways show the same lines.** Of what the user is told in a run, a transcript has the
lines of each message, and the text that is printed has the lines of each message with a line feed
behind it. These are the same exactly if all messages end plainly; in particular an empty message is
missing in the transcript. -/
theorem shown_alike_iff {s : Session} {ds : List Deed} {c : Config} (h : Steps (.idle s) ds c) :
    ∃ news, c.session.events = s.events ++ news ∧
      (∀ t, (news.foldl Transcript.add t).lines = t.lines ++ (textsOf news).flatMap linesOf) ∧
      linesOf (printed news) = ((textsOf news).flatMap fun text => linesOf (text ++ "\n")) ∧
      ((news.foldl Transcript.add {}).lines = linesOf (printed news) ↔
        ∀ text ∈ textsOf news, Text.EndsPlainly text.toList) := by
  obtain ⟨news, hnews⟩ := h.events_isPrefix
  refine ⟨news, hnews.symm, lines_foldl_add news, linesOf_printed news, ?_⟩
  rw [lines_foldl_add, linesOf_printed]
  refine (flatMap_eq_flatMap_iff length_linesOf_le).trans ?_
  simp only [linesOf_eq_iff]

/-- A message of two lines, and an error behind it. -/
theorem shown_alike_iff_twoLines :
    ∃ m r, Machine.runScript ⟨0, {}⟩ "echo \"a\\nb\"\nFoo" = (some r, m) ∧
      (m.session.events.foldl Transcript.add {}).lines = linesOf (printed m.session.events) ∧
      textsOf m.session.events = ["a\nb", "E492: Not an editor command: Foo"] := by
  let script := "echo \"a\\nb\"\nFoo"
  have hresult : (Machine.runScript ⟨0, {}⟩ script).1 = some (.error (.notACommand "Foo")) := by
    decide +kernel
  have hevents : textsOf (Machine.runScript ⟨0, {}⟩ script).2.session.events =
      ["a\nb", "E492: Not an editor command: Foo"] := by decide +kernel
  obtain ⟨⟨r, m⟩, hrun⟩ : ∃ r, Machine.runScript ⟨0, {}⟩ script = r := ⟨_, rfl⟩
  rw [hrun] at hresult hevents
  obtain rfl : r = some (.error (.notACommand "Foo")) := hresult
  obtain ⟨ds, hds⟩ := Machine.steps_of_runScript hrun
  obtain ⟨news, hnews, -, -, halike⟩ := shown_alike_iff hds
  obtain rfl : m.session.events = news := hnews
  refine ⟨m, _, hrun, halike.mpr ?_, hevents⟩
  rw [hevents]
  decide +kernel

/-- An empty message is printed as an empty line, and is not in the transcript. -/
theorem emptyMessage_only_printed :
    ∃ m, Machine.runScript ⟨0, {}⟩ "echo ''" = (some (.ok ()), m) ∧
      m.session.events = [.report ""] ∧
      (m.session.events.foldl Transcript.add {}).lines = [] ∧
      linesOf (printed m.session.events) = [""] := by
  have hresult : (Machine.runScript ⟨0, {}⟩ "echo ''").1 = some (.ok ()) := by decide +kernel
  have hevents : (Machine.runScript ⟨0, {}⟩ "echo ''").2.session.events = [.report ""] := by
    decide +kernel
  obtain ⟨⟨r, m⟩, hrun⟩ : ∃ r, Machine.runScript ⟨0, {}⟩ "echo ''" = r := ⟨_, rfl⟩
  rw [hrun] at hresult hevents
  obtain rfl : r = some (.ok ()) := hresult
  refine ⟨m, hrun, hevents, ?_, ?_⟩
  · rw [hevents]
    decide +kernel
  · rw [hevents]
    decide +kernel

end ExScript
