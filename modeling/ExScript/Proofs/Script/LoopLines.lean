import ExScript.Proofs.Expr.Listed
import ExScript.Proofs.Script.Callable

/-!
# Loops line by line

A loop, a choice or an assignment that is written with its keyword at the front of a line is one
statement, as long as nothing cuts the line. What stands behind the keyword is an expression, and
bars in an expression do not cut. So scripts that are put together from such lines and from texts
that are scripts themselves can be read as they stand: their rows are the rows of the lines and the
texts one behind the other.

A line is dealt with in two steps: it is one statement, and the statement is read as its keyword
with an argument. The first is where something has to be known of the expression. What stands in
front of it is plain; of the expression itself it is enough that it can be read, because no bar in
such a text cuts (`Expression.cutAtBar_of_parse`), and that there is no line feed in it.

The second is where blanks get lost. Those behind an expression at the end of a line are not a part
of the argument, and the expression should be the same without them. Mostly it is, but a quote may
still be open at the end of an expression, and then they are a part of a text. So `IsSource` asks
for both. It holds of constants and of lists of them, whose quotes are closed.

None of this depends on what is in a body. That a body can be read on its own is all that the lines
around it need, and the tree of the whole has the tree of the body in it.

## Main definitions

* `StartsLine` — a text that can stand behind any other one
* `IsSource` — a text as the source of an expression on a line
* `forLines`, `whileLines` — loops with the texts of their bodies

## Main results

* `statements_intercalate` — the statements of texts with line breaks between them
* `exists_statement_of_keyword` — a line with a keyword is one statement
* `reads_let`, `derives_forLines`, `derives_whileLines`, `derives_if` — what is read from such lines
* `parse_intercalate` — texts whose rows form a block are the script of this block
-/

namespace ExScript

namespace Script

/-! ### Texts and lines

The rows of a text are its statements. Texts are put one behind the other with line breaks, and
their rows are put one behind the other with nothing between. -/

instance : DecidablePred IsPlain :=
  fun text => decidable_of_iff (text.all fun c => !isMark c) (by simp [IsPlain])

/-- The rows of statements of some texts, one behind the other. -/
def rowsOf (texts : List String) : List (List Char) :=
  texts.flatMap fun t => statements t.toList

theorem rowsOf_append (texts others : List String) :
    rowsOf (texts ++ others) = rowsOf texts ++ rowsOf others :=
  List.flatMap_append

/-- A text that can stand behind any other one: its first line does not go on the line before. -/
def StartsLine (text : String) : Prop :=
  ∀ line ∈ (Text.lines text.toList).head?, continuesLine line = false

/-- **The statements of texts with line breaks between them**, if no text goes on the one before. -/
theorem statements_intercalate {text : String} {texts : List String}
    (h : ∀ t ∈ texts, StartsLine t) :
    statements ("\n".intercalate (text :: texts)).toList = rowsOf (text :: texts) := by
  induction texts generalizing text with
  | nil => simp [rowsOf]
  | cons next texts ih =>
    obtain ⟨hnext, hothers⟩ := List.forall_mem_cons.mp h
    have joined : "\n".intercalate (text :: next :: texts) =
        "\n".intercalate ((text ++ "\n" ++ next) :: texts) := by
      cases texts with
      | nil => simp
      | cons => simp only [String.intercalate_cons_cons, String.append_assoc]
    have pair : statements (text ++ "\n" ++ next).toList =
        statements text.toList ++ statements next.toList := by
      rw [← statements_append text.toList hnext]
      simp
    rw [joined, ih hothers, rowsOf, List.flatMap_cons, pair]
    simp [rowsOf]

/-- In front of a text that may be cut, a plain text is passed over. -/
theorem cutAtBar_append_of_plain {front : List Char} (h : IsPlain front) (text : List Char) :
    cutAtBar none (front ++ text) =
      (front ++ (cutAtBar none text).1, (cutAtBar none text).2) := by
  have passes : Passes none (front ++ text) text := by
    induction front with
    | nil => exact .refl text
    | cons c front ih =>
      obtain ⟨hc, hfront⟩ := List.forall_mem_cons.mp h
      exact (passes_plain hc _).trans (ih hfront)
  obtain ⟨read, heq, hcut⟩ := passes
  rw [hcut, ← List.append_cancel_right heq]

theorem trimEnd_append {front : List Char} (h : ∀ c ∈ front, isBlank c = false)
    (text : List Char) : Text.trimEnd (front ++ text) = front ++ Text.trimEnd text := by
  induction front with
  | nil => rfl
  | cons c front ih =>
    obtain ⟨hc, hfront⟩ := List.forall_mem_cons.mp h
    rw [List.cons_append, Text.trimEnd_cons hc, ih hfront, List.cons_append]

end Script

/-! ### Keywords

Keywords can be abbreviated. The lines below are written with the full words, but what is proved of
a line with a keyword holds of each way to write it. -/

/-- A way to write a keyword: letters that are known to stand for it. -/
structure Keyword.IsWritten (word : List Char) (keyword : Keyword) : Prop where
  isAlpha : ∀ c ∈ word, c.isAlpha = true
  named : Keyword.named? word = some keyword

namespace Keyword.IsWritten

variable {word : List Char} {keyword : Keyword}

theorem single (h : IsWritten word keyword) : '\n' ∉ word :=
  fun hc => absurd (h.isAlpha '\n' hc) (by decide)

theorem exists_cons (h : IsWritten word keyword) : ∃ c rest, word = c :: rest ∧ c.isAlpha ∧
    startsUppercase word = false := by
  have named := h.named
  cases word with
  | nil => cases named
  | cons c rest =>
    refine ⟨c, rest, rfl, h.isAlpha c List.mem_cons_self, ?_⟩
    cases hupper : startsUppercase (c :: rest) with
    | false => rfl
    | true => simp [named?, hupper] at named

/-- A keyword ends where no letter follows. -/
theorem splitName_append (h : IsWritten word keyword) {rest : List Char}
    (hrest : ∀ c ∈ rest.head?, c.isAlpha = false) :
    splitName (word ++ rest) = (word, Text.trim rest) := by
  have isNameChar : isNameChar (word ++ rest) = Char.isAlpha := by
    obtain ⟨c, others, rfl, -, hupper⟩ := h.exists_cons
    have hupper : startsUppercase (c :: others ++ rest) = false := hupper
    funext d
    rw [Keyword.isNameChar, hupper, Bool.false_and, Bool.or_false]
  have ends : rest.takeWhile Char.isAlpha = [] ∧ rest.dropWhile Char.isAlpha = rest := by
    cases rest with
    | nil => exact ⟨rfl, rfl⟩
    | cons c rest =>
      have hc : c.isAlpha = false := hrest c rfl
      exact ⟨List.takeWhile_cons_of_neg (by simp [hc]), List.dropWhile_cons_of_neg (by simp [hc])⟩
  rw [splitName, nameOf, isNameChar, List.takeWhile_append_of_pos h.isAlpha,
    List.dropWhile_append_of_pos h.isAlpha, ends.1, ends.2, List.append_nil]

/-- Every name in the table is a way to write its keyword: no other one comes before it. -/
theorem of_mem_table (entry : String × String × Keyword) (h : entry ∈ table) :
    IsWritten entry.1.toList entry.2.2 := by
  have isAlpha : table.all (fun entry => entry.1.toList.all Char.isAlpha) := by decide
  have named : table.all (fun entry => named? entry.1.toList == some entry.2.2) := by decide
  exact ⟨List.all_eq_true.mp (List.all_eq_true.mp isAlpha entry h),
    beq_iff_eq.mp (List.all_eq_true.mp named entry h)⟩

end Keyword.IsWritten

namespace Script

/-- **A line with a keyword at its front** is one statement, if it is not cut behind the keyword. -/
theorem exists_statement_of_keyword {word argument : List Char} {keyword : Keyword}
    (h : keyword.IsWritten word) (hargument : ∀ c ∈ argument.head?, c.isAlpha = false)
    (hcut : cutAtBar none argument = (argument, none)) (hsingle : '\n' ∉ argument) :
    ∃ statement, statements (word ++ argument) = [statement] ∧
      HasKeyword statement keyword (Text.trim argument) := by
  have notBlank : ∀ c ∈ word, isBlank c = false := fun c hc =>
    isBlank_of_isAlphanum (isAlphanum_of_isAlpha (h.isAlpha c hc))
  have plain : IsPlain word := fun c hc =>
    isMark_of_isAlphanum (isAlphanum_of_isAlpha (h.isAlpha c hc))
  -- whether or not the statement takes all of its line, the line is not cut
  have whole : splitBars (word ++ argument) = [word ++ argument] := by
    rw [splitBars_eq, cutAtBar_append_of_plain plain, hcut]
    exact ite_self _
  have hrest : ∀ c ∈ (Text.trimEnd argument).head?, c.isAlpha = false := by
    intro c hc
    obtain ⟨behind, hbehind⟩ := Text.trimEnd_isPrefix argument
    refine hargument c ?_
    rw [← hbehind]
    exact List.mem_head?_append_of_mem_head? hc
  have range : LineRange.parse (word ++ Text.trimEnd argument) =
      ({}, word ++ Text.trimEnd argument) := by
    obtain ⟨c, others, rfl, hc, -⟩ := h.exists_cons
    exact range_letter hc _
  have parts : Keyword.splitName (word ++ Text.trimEnd argument) = _ := h.splitName_append hrest
  refine ⟨word ++ Text.trimEnd argument, ?_, {}, word, ⟨?_, ?_, ?_⟩, rfl, h.named⟩
  · obtain ⟨c, others, rfl, hc, -⟩ := h.exists_cons
    have begins : (Text.trimStart (c :: others ++ argument)).head? ≠ some '\\' := by
      rw [List.cons_append, Text.trimStart_cons (notBlank c List.mem_cons_self)]
      rintro ⟨⟩
      exact absurd hc (by decide)
    rw [statements_of_single (List.not_mem_append h.single hsingle) begins, statementsOfLines,
      List.flatMap_singleton, whole, List.map_singleton, List.cons_append, stripColons_letter hc,
      List.filter_singleton, isEffective_letter hc, ← List.cons_append, trimEnd_append notBlank]
    rfl
  · rw [range]
  · rw [range, parts]
  · rw [range, parts]
    exact Text.trim_trimEnd argument

/-- A line with a keyword at its front goes on no line. -/
theorem startsLine_of_keyword {text : String} {word argument : List Char} {keyword : Keyword}
    (h : keyword.IsWritten word) (hsingle : '\n' ∉ text.toList)
    (htext : text.toList = word ++ argument) : StartsLine text := by
  obtain ⟨c, others, rfl, hc, -⟩ := h.exists_cons
  intro line hline
  rw [Text.lines_of_single (by simp [htext]) hsingle] at hline
  obtain rfl : text.toList = line := Option.some.inj hline
  have notBlank := isBlank_of_isAlphanum (isAlphanum_of_isAlpha hc)
  rw [continuesLine, htext, List.cons_append, Text.trimStart_cons notBlank]
  split
  next heq =>
    obtain ⟨rfl, -⟩ := List.cons.inj heq
    exact absurd hc (by decide)
  next heq =>
    obtain ⟨rfl, -⟩ := List.cons.inj heq
    exact absurd hc (by decide)
  next => rfl

/-- A keyword alone on its line. -/
theorem exists_statement_of_word {word : String} {keyword : Keyword}
    (h : keyword.IsWritten word.toList) :
    ∃ statement, rowsOf [word] = [statement] ∧ HasKeyword statement keyword [] := by
  have nothing : ∀ c ∈ ([] : List Char).head?, c.isAlpha = false := by
    rintro c ⟨⟩
  obtain ⟨statement, hstatement, hkeyword⟩ :=
    exists_statement_of_keyword h nothing rfl List.not_mem_nil
  rw [List.append_nil] at hstatement
  exact ⟨statement, by simpa [rowsOf] using hstatement, hkeyword⟩

theorem startsLine_of_word {word : String} {keyword : Keyword}
    (h : keyword.IsWritten word.toList) : StartsLine word :=
  startsLine_of_keyword h h.single (List.append_nil _).symm

/-! ### Conditions -/

/-- A line with a keyword and a condition. The condition is read without the blanks around it. -/
theorem exists_statement_of_condition {text condition : String} {word : List Char}
    {keyword : Keyword} {e : Expression} (hword : keyword.IsWritten word)
    (hparse : Expression.parse condition = .ok e) (hsingle : '\n' ∉ condition.toList)
    (htext : text.toList = word ++ ' ' :: condition.toList) :
    ∃ statement argument, rowsOf [text] = [statement] ∧ HasKeyword statement keyword argument ∧
      String.ofList argument = trimmed condition ∧ StartsLine text := by
  have plain : IsPlain [' '] := by decide
  have hcut : cutAtBar none (' ' :: condition.toList) = (' ' :: condition.toList, none) := by
    have front := cutAtBar_append_of_plain plain condition.toList
    rwa [Expression.cutAtBar_of_parse hparse] at front
  have single : '\n' ∉ ' ' :: condition.toList := by simpa using hsingle
  obtain ⟨statement, hstatement, hkeyword⟩ :=
    exists_statement_of_keyword hword (by simp) hcut single
  rw [← htext] at hstatement
  refine ⟨statement, _, by simpa [rowsOf] using hstatement, hkeyword, rfl, ?_⟩
  refine startsLine_of_keyword hword ?_ htext
  rw [htext]
  exact List.not_mem_append hword.single single

/-! ### Variables

A legal name has no mark in it and no blank, so it can stand between a keyword and an expression
with the sign of an assignment behind it, or with the `in` of a `:for`. -/

theorem isMark_of_isTargetChar {c : Char} (h : Command.isTargetChar c = true) :
    isMark c = false := by
  simp only [Command.isTargetChar, Bool.or_eq_true, beq_iff_eq] at h
  rcases h with (h | rfl) | rfl
  · exact isMark_of_isAlphanum h
  · decide
  · decide

theorem isPlain_of_isLegalName {name : String} (h : Variables.isLegalName name.toList = true) :
    IsPlain name.toList :=
  fun c hc => isMark_of_isTargetChar (Variables.isTargetChar_of_isLegalName h c hc)

/-- What is left of a text at the end of a line. -/
def kept (source : String) : String :=
  String.ofList (Text.trimEnd source.toList)

@[simp] theorem toList_kept (source : String) :
    (kept source).toList = Text.trimEnd source.toList :=
  String.toList_ofList

/-- A text as the source of an expression at the end of a line, where the blanks behind it are lost:
it is the same expression without them. -/
structure IsSource (source : String) (e : Expression) : Prop where
  single : '\n' ∉ source.toList
  parse : Expression.parse source = .ok e
  parse_kept : Expression.parse (kept source) = .ok e

/-- An expression is left of a text only if anything is. -/
theorem kept_ne_nil {source : String} {e : Expression} (h : Expression.parse (kept source) = .ok e) :
    Text.trimEnd source.toList ≠ [] := by
  intro hnil
  rw [kept, hnil] at h
  cases h

/-- Constants in brackets are the source of the list of their values. -/
theorem IsSource.listed {texts : List String} (h : ∀ t ∈ texts, Expression.IsConstant t)
    {values : List Value} (hvalues : List.Forall₂ Expression.Denotes texts values) :
    ∃ e, IsSource (Expression.listed texts) e ∧ ∀ vars, e.eval vars = .ok (.list values) := by
  obtain ⟨e, hparse, heval⟩ := Expression.Denotes.listed hvalues fun t ht => (h t ht).closed
  have same : kept (Expression.listed texts) = Expression.listed texts := by
    have bracket : Text.trimEnd [']'] = [']'] := by decide
    have ends (before : List Char) : Text.trimEnd (before ++ [']']) = before ++ [']'] := by
      rw [Text.trimEnd_append_of_ne_nil (by decide), bracket]
    rw [← String.toList_inj, toList_kept, Expression.listed, String.toList_append]
    exact ends _
  refine ⟨e, ⟨?_, hparse, same.symm ▸ hparse⟩, heval⟩
  have text : (Expression.listed texts).toList =
      '[' :: ((", ".intercalate texts).toList ++ [']']) := by
    simp [Expression.listed]
  rw [text]
  cases texts with
  | nil => decide
  | cons first others =>
    obtain ⟨hfirst, hothers⟩ := List.forall_mem_cons.mp h
    rw [Expression.toList_intercalate_cons]
    simpa using ⟨hfirst.single, fun t ht => (hothers t ht).single⟩

/-- A constant is the source of an expression with its value. -/
theorem IsSource.of_isConstant {text : String} (h : Expression.IsConstant text) :
    ∃ e v, IsSource text e ∧ Expression.Denotes text v ∧ ∀ vars, e.eval vars = .ok v := by
  obtain ⟨v, e, hparse, heval⟩ := h.denotes
  exact ⟨e, v, ⟨h.single, hparse, Expression.parse_trimEnd hparse h.closed⟩, ⟨e, hparse, heval⟩,
    heval⟩

/-- What can stand between a keyword and an expression. -/
structure IsFront (front : List Char) : Prop where
  plain : IsPlain front
  single : '\n' ∉ front
  begins : ∃ c rest, front = c :: rest ∧ isBlank c = false

theorem IsFront.of_isLegalName {x : String} (hx : Variables.isLegalName x.toList = true)
    (sign : List Char) (hplain : IsPlain sign) (hsingle : '\n' ∉ sign) :
    IsFront (x.toList ++ sign) := by
  have single : '\n' ∉ x.toList := fun hc =>
    absurd (Variables.not_blank_of_isLegalName hx _ hc) (by decide)
  exact ⟨List.forall_mem_append.mpr ⟨isPlain_of_isLegalName hx, hplain⟩,
    List.not_mem_append single hsingle, Variables.begins_of_isLegalName hx sign⟩

/-- What is left of an argument are its front and what is left of the expression: the front begins
with no blank, and behind the expression only blanks are lost. -/
theorem IsFront.trim {front : List Char} {source : String} {e : Expression}
    (hfront : IsFront front) (hsource : IsSource source e) :
    Text.trim (front ++ source.toList) = front ++ (kept source).toList := by
  rw [toList_kept]
  exact Text.trim_append hfront.begins (kept_ne_nil hsource.parse_kept)

/-- A line with a keyword and something behind it that ends in an expression. -/
theorem exists_statement_of_front {text : String} {word front : List Char} {keyword : Keyword}
    {source : String} {e : Expression} (hword : keyword.IsWritten word) (hfront : IsFront front)
    (hsource : IsSource source e) (htext : text.toList = word ++ ' ' :: (front ++ source.toList)) :
    ∃ statement, rowsOf [text] = [statement] ∧
      HasKeyword statement keyword (front ++ (kept source).toList) ∧ StartsLine text := by
  have plain : IsPlain (' ' :: front) := List.forall_mem_cons.mpr ⟨by decide, hfront.plain⟩
  have single : '\n' ∉ ' ' :: (front ++ source.toList) := by
    simpa using ⟨hfront.single, hsource.single⟩
  have hcut : cutAtBar none (' ' :: (front ++ source.toList)) =
      (' ' :: (front ++ source.toList), none) := by
    have passed := cutAtBar_append_of_plain plain source.toList
    rwa [Expression.cutAtBar_of_parse hsource.parse] at passed
  obtain ⟨statement, hstatement, hkeyword⟩ :=
    exists_statement_of_keyword hword (by simp) hcut single
  rw [Text.trim_cons_blank rfl, hfront.trim hsource] at hkeyword
  refine ⟨statement, ?_, hkeyword, startsLine_of_keyword hword ?_ htext⟩
  · rw [← htext] at hstatement
    simpa [rowsOf] using hstatement
  · rw [htext]
    exact List.not_mem_append hword.single single

/-! ### Trees

Trees are put together by the rules of `Derives` from the rows of lines and texts. That a row can be
derived is then also what the parser finds (`ofStatements_of_derives`), so each loop comes with its
tree and with the fact that it can stand behind other lines. -/

/-- Texts whose rows form a block are the script of this block. -/
theorem parse_intercalate {text : String} {texts : List String} {body : List Stmt}
    (hstart : ∀ t ∈ texts, StartsLine t) (h : Derives (.block body) (rowsOf (text :: texts))) :
    parse ("\n".intercalate (text :: texts)) = .ok body := by
  rw [parse, statements_intercalate hstart]
  exact ofStatements_of_derives h

theorem derives_of_parse {text : String} {body : List Stmt} (h : parse text = .ok body) :
    Derives (.block body) (rowsOf [text]) := by
  rw [rowsOf, List.flatMap_singleton]
  exact derives_of_ofStatements h

/-- A statement alone is a block. -/
theorem Derives.single {x : Stmt} {row : List (List Char)} (h : Derives (.statement x) row) :
    Derives (.block [x]) row := by
  simpa using Derives.cons h .nil

/-- Texts between two lines. -/
theorem rowsOf_between {opening closing : String} {first last : List Char}
    (hfirst : rowsOf [opening] = [first]) (hlast : rowsOf [closing] = [last])
    (texts : List String) :
    rowsOf (opening :: (texts ++ [closing])) = first :: rowsOf texts ++ [last] := by
  rw [← List.singleton_append, rowsOf_append, rowsOf_append, hfirst, hlast]
  rfl

section Assignments

variable {x source body : String} {e : Expression} {xs : List Stmt}

/-- An assignment, or anything else behind a `:let` that ends in an expression. -/
theorem reads_let {text argument : String} {front : List Char} (hfront : IsFront front)
    (hsource : IsSource source e) (hargument : argument.toList = front ++ source.toList)
    (htext : text.toList = "let".toList ++ ' ' :: argument.toList) :
    ∃ statement, rowsOf [text] = [statement] ∧
      Reads statement (.plain (.simple (.assign (kept argument)))) := by
  have hword : Keyword.assign.IsWritten "let".toList :=
    .of_mem_table ("let", "let", .assign) (by decide)
  rw [hargument] at htext
  obtain ⟨statement, hstatement, ⟨range, name, parts, hrange, hname⟩, -⟩ :=
    exists_statement_of_front hword hfront hsource htext
  have trimmed : String.ofList (front ++ (kept source).toList) = kept argument := by
    rw [toList_kept, ← Text.trimEnd_append_of_ne_nil (kept_ne_nil hsource.parse_kept), ← hargument]
    rfl
  refine ⟨statement, hstatement, trimmed ▸ .simple parts hname rfl ⟨fun h => h hrange, ?_⟩⟩
  obtain ⟨c, rest, rfl, -⟩ := hfront.begins
  exact List.cons_ne_nil _ _

/-- A script that is one line with an assignment. -/
theorem parse_let {text argument : String} {front : List Char} (hfront : IsFront front)
    (hsource : IsSource source e) (hargument : argument.toList = front ++ source.toList)
    (htext : text.toList = "let".toList ++ ' ' :: argument.toList) :
    parse text = .ok [.simple (.assign (kept argument))] := by
  obtain ⟨statement, hstatement, hreads⟩ := reads_let hfront hsource hargument htext
  have line : Derives (.block [.simple (.assign (kept argument))]) (rowsOf [text]) := by
    rw [hstatement]
    exact Derives.single (.plain hreads)
  have parsed := parse_intercalate (List.forall_mem_nil _) line
  rwa [String.intercalate_singleton] at parsed

/-! ### Loops over items -/

/-- The line that opens a `:for`. -/
theorem reads_for (hx : Variables.isLegalName x.toList = true) (hsource : IsSource source e) :
    ∃ statement, rowsOf ["for " ++ x ++ " in " ++ source] = [statement] ∧
      Reads statement (.openFor x e) ∧ StartsLine ("for " ++ x ++ " in " ++ source) := by
  have hfront := IsFront.of_isLegalName hx " in ".toList (by decide) (by decide)
  have text : ("for " ++ x ++ " in " ++ source).toList =
      "for".toList ++ ' ' :: (x.toList ++ " in ".toList ++ source.toList) := by
    simp
  have hword : Keyword.forLoop.IsWritten "for".toList :=
    .of_mem_table ("for", "for", .forLoop) (by decide)
  obtain ⟨statement, hstatement, hkeyword, hstart⟩ :=
    exists_statement_of_front hword hfront hsource text
  have argument : IsForArgument (x.toList ++ " in ".toList ++ (kept source).toList) x.toList
      (" " ++ kept source).toList := by
    have behind : Text.startsBlank (" " ++ kept source).toList = true := by
      rw [String.toList_append]
      rfl
    have blank : ∀ c ∈ [' '], isBlank c := List.forall_mem_singleton.mpr rfl
    exact ⟨Variables.ne_nil_of_isLegalName hx, Variables.not_blank_of_isLegalName hx, behind, [' '],
      List.cons_ne_nil _ _, blank, by simp⟩
  have items : Expression.parse (String.ofList (" " ++ kept source).toList) = .ok e := by
    rw [String.ofList_toList, Expression.parse_space, hsource.parse_kept]
  have reads := Reads.openFor hkeyword argument items
  rw [String.ofList_toList] at reads
  exact ⟨statement, hstatement, reads, hstart⟩

theorem isWritten_endfor : Keyword.endFor.IsWritten "endfor".toList :=
  .of_mem_table ("endfor", "endfo", .endFor) (by decide)

/-- A `:for` with the text of its body. -/
def forLines (x source body : String) : List String :=
  ["for " ++ x ++ " in " ++ source, body, "endfor"]

/-- A `:for` over the items of `source`, with what its body says. -/
theorem derives_forLines (hx : Variables.isLegalName x.toList = true) (hsource : IsSource source e)
    (hbody : parse body = .ok xs) :
    Derives (.statement (.forLoop x e xs)) (rowsOf (forLines x source body)) := by
  obtain ⟨first, hfirst, opens, -⟩ := reads_for hx hsource
  obtain ⟨last, hlast, hkeyword⟩ := exists_statement_of_word isWritten_endfor
  have rows : rowsOf (forLines x source body) = first :: rowsOf [body] ++ [last] :=
    rowsOf_between hfirst hlast [body]
  rw [rows]
  exact .forLoop opens (derives_of_parse hbody) (.endFor hkeyword)

theorem startsLine_forLines (hx : Variables.isLegalName x.toList = true)
    (hsource : IsSource source e) (hstart : StartsLine body) :
    ∀ t ∈ forLines x source body, StartsLine t := by
  obtain ⟨-, -, -, header⟩ := reads_for hx hsource
  have last : StartsLine "endfor" := startsLine_of_word isWritten_endfor
  simp [forLines, header, hstart, last]

end Assignments

/-! ### Loops and choices with a condition -/

section Conditions

variable {condition body : String} {texts : List String} {e c : Expression} {xs : List Stmt}

theorem isWritten_endwhile : Keyword.endWhile.IsWritten "endwhile".toList :=
  .of_mem_table ("endwhile", "endw", .endWhile) (by decide)

theorem isWritten_endif : Keyword.endIf.IsWritten "endif".toList :=
  .of_mem_table ("endif", "en", .endIf) (by decide)

/-- A `:while` with the text of its body. -/
def whileLines (condition body : String) : List String :=
  ["while " ++ condition, body, "endwhile"]

/-- The line that opens a `:while`. -/
theorem hasKeyword_while (hparse : Expression.parse condition = .ok e)
    (hsingle : '\n' ∉ condition.toList) :
    ∃ statement argument, rowsOf ["while " ++ condition] = [statement] ∧
      HasKeyword statement .whileLoop argument ∧
      String.ofList argument = trimmed condition ∧ StartsLine ("while " ++ condition) := by
  have hword : Keyword.whileLoop.IsWritten "while".toList :=
    .of_mem_table ("while", "wh", .whileLoop) (by decide)
  exact exists_statement_of_condition hword hparse hsingle (by simp)

/-- The line that opens an `:if`. -/
theorem hasKeyword_if (hparse : Expression.parse condition = .ok e)
    (hsingle : '\n' ∉ condition.toList) :
    ∃ statement argument, rowsOf ["if " ++ condition] = [statement] ∧
      HasKeyword statement .ifBranch argument ∧
      String.ofList argument = trimmed condition ∧ StartsLine ("if " ++ condition) := by
  have hword : Keyword.ifBranch.IsWritten "if".toList :=
    .of_mem_table ("if", "if", .ifBranch) (by decide)
  exact exists_statement_of_condition hword hparse hsingle (by simp)

/-- A `:while` with what its body says. Its condition is read without the blanks around it. -/
theorem derives_whileLines (hparse : Expression.parse condition = .ok e)
    (hsingle : '\n' ∉ condition.toList)
    (hcondition : Expression.parse (trimmed condition) = .ok c)
    (hbody : parse body = .ok xs) :
    Derives (.statement (.whileLoop (.expression c) xs)) (rowsOf (whileLines condition body)) := by
  obtain ⟨first, argument, hfirst, hkeyword, hargument, -⟩ := hasKeyword_while hparse hsingle
  obtain ⟨last, hlast, hlastKeyword⟩ := exists_statement_of_word isWritten_endwhile
  have rows : rowsOf (whileLines condition body) = first :: rowsOf [body] ++ [last] :=
    rowsOf_between hfirst hlast [body]
  rw [← hargument] at hcondition
  rw [rows]
  exact .whileLoop (.openWhile hkeyword hcondition) (derives_of_parse hbody)
    (.endWhile hlastKeyword)

theorem startsLine_whileLines (hparse : Expression.parse condition = .ok e)
    (hsingle : '\n' ∉ condition.toList) (hstart : StartsLine body) :
    ∀ t ∈ whileLines condition body, StartsLine t := by
  obtain ⟨-, -, -, -, -, header⟩ := hasKeyword_while hparse hsingle
  have last : StartsLine "endwhile" := startsLine_of_word isWritten_endwhile
  simp [whileLines, header, hstart, last]

/-- An `:if` without other branches. -/
theorem derives_if (hparse : Expression.parse condition = .ok e)
    (hsingle : '\n' ∉ condition.toList)
    (hcondition : Expression.parse (trimmed condition) = .ok c)
    (hbody : Derives (.block xs) (rowsOf texts)) :
    Derives (.statement (choose [(c, xs)] none))
      (rowsOf (("if " ++ condition) :: (texts ++ ["endif"]))) := by
  obtain ⟨first, argument, hfirst, hkeyword, hargument, -⟩ := hasKeyword_if hparse hsingle
  obtain ⟨last, hlast, hlastKeyword⟩ := exists_statement_of_word isWritten_endif
  rw [← hargument] at hcondition
  have derived : Derives (.statement (choose [(c, xs)] none)) _ :=
    .choose (.openIf hkeyword hcondition) hbody .noBranch .noElse (.endIf hlastKeyword)
  rw [rowsOf_between hfirst hlast]
  simpa using derived

/-- A script whose first line is refused is refused. -/
theorem parse_of_refused {text : String} {statement : List Char} {err : Error}
    (hrow : rowsOf [text] = [statement]) (hrefused : readLine statement = .error err)
    (hstart : ∀ t ∈ texts, StartsLine t) :
    parse ("\n".intercalate (text :: texts)) = .error err := by
  have rows : statements ("\n".intercalate (text :: texts)).toList =
      [statement] ++ rowsOf texts := by
    rw [statements_intercalate hstart, ← hrow, ← rowsOf_append]
    rfl
  rw [parse, rows, List.singleton_append, ofStatements, Draft.steps, Draft.step, hrefused]

/-- A line with a condition that cannot be read is refused for that. -/
theorem readLine_of_condition {statement argument : List Char} {keyword : Keyword} {err : Error}
    (hkind : keyword = .whileLoop ∨ keyword = .ifBranch)
    (hkeyword : HasKeyword statement keyword argument)
    (hcondition : Expression.parse (String.ofList argument) = .error err) :
    readLine statement = .error err := by
  rw [hkeyword.readLine_eq]
  rcases hkind with rfl | rfl
  · show (Expression.parse _).map _ = _
    rw [hcondition]
    rfl
  · show (Expression.parse _).map _ = _
    rw [hcondition]
    rfl

end Conditions

end Script

end ExScript
