import ExScript.Proofs.Expr.ReadBack
import ExScript.UserCommand.Placeholder

/-!
# Arguments that are handed on as texts

A replacement text can hand on its arguments to an expression: `<q-args>` brings them in as one text
in quotes, and `<f-args>` as fields, each of them in quotes. Nothing that stands in the arguments
gets out of the quotes, be it a quote, a row of backslashes or a placeholder, so that what arrives
is what was meant.

For fields this takes two steps. Blanks separate fields, so a blank that belongs to a field is
written with a backslash in front of it, and then a backslash needs one too. What is split off is
without these backslashes, and is then written between double quotes, where backslashes are needed
at other places.

A field must not be empty: there is no way to write one, since blanks in a row separate like a
single one. Apart from that there is no condition on what the arguments hold. Of `<args>` nothing is
said here, for what it brings in is not a text but a part of the script.

## Main definitions

* `Placeholder.writeFields` — fields as arguments

## Main results

* `Placeholder.splitFields_writeFields` — the fields are read back from the arguments
* `Lexeme.scansTo_quoted` — fields in quotes, with commas between them, are the tokens of a list
* `Placeholder.arguments_arrive` — what expressions with these placeholders evaluate to
-/

namespace ExScript

namespace Placeholder

/-! ### Fields as arguments

The reader of fields has the field so far as an argument, so there is a lemma for each kind of
character with any field before it, and the field that is written is taken in by induction. -/

/-- A field with a backslash in front of each blank and each backslash. -/
def writeField (field : List Char) : List Char :=
  field.flatMap fun c => if isBlank c || c == '\\' then ['\\', c] else [c]

/-- Fields as arguments, with a space between two of them. -/
def writeFields (fields : List (List Char)) : List Char :=
  [' '].intercalate (fields.map writeField)

theorem splitFields_escaped {c : Char} (hc : (isBlank c || c == '\\') = true)
    (field rest : List Char) :
    splitFields field ('\\' :: c :: rest) = splitFields (field ++ [c]) rest := by
  rw [splitFields.eq_def]
  exact if_pos hc

/-- What a character does that is not a backslash. -/
theorem splitFields_cons {c : Char} (hc : c ≠ '\\') (field rest : List Char) :
    splitFields field (c :: rest) =
      if isBlank c then
        if field.isEmpty then splitFields [] rest else field :: splitFields [] rest
      else splitFields (field ++ [c]) rest := by
  rw [splitFields.eq_def]
  split
  next hnil => cases hnil
  next heq =>
    cases heq
    exact absurd rfl hc
  next heq =>
    cases heq
    rfl

theorem splitFields_plain {c : Char} (hc : (isBlank c || c == '\\') = false)
    (field rest : List Char) :
    splitFields field (c :: rest) = splitFields (field ++ [c]) rest := by
  rw [Bool.or_eq_false_iff, beq_eq_false_iff_ne] at hc
  rw [splitFields_cons hc.2, hc.1, if_neg Bool.false_ne_true]

/-- A space ends a field, and so does the end of the arguments. -/
theorem splitFields_space {field : List Char} (h : field ≠ []) (rest : List Char) :
    splitFields field (' ' :: rest) = field :: splitFields [] rest := by
  have hblank : isBlank ' ' = true := by decide
  rw [splitFields_cons (by decide), if_pos hblank, List.isEmpty_eq_false_iff.mpr h,
    if_neg Bool.false_ne_true]

/-- The last field ends with the arguments. -/
theorem splitFields_nil {field : List Char} (h : field ≠ []) : splitFields field [] = [field] := by
  rw [splitFields.eq_def]
  exact if_neg (by simp [h])

/-- A field that is written is taken in without the backslashes in front of its characters. -/
theorem splitFields_writeField (before field rest : List Char) :
    splitFields before (writeField field ++ rest) = splitFields (before ++ field) rest := by
  induction field generalizing before with
  | nil => rw [List.append_nil]; rfl
  | cons c field ih =>
    rw [writeField, List.flatMap_cons, ← writeField, List.append_assoc]
    split
    next hc =>
      rw [List.cons_append, List.singleton_append, splitFields_escaped hc, ih, List.append_assoc]
      rfl
    next hc =>
      rw [List.singleton_append, splitFields_plain (by simpa using hc), ih, List.append_assoc]
      rfl

/-- **The fields are read back from the arguments.** -/
theorem splitFields_writeFields {fields : List (List Char)} (h : ∀ field ∈ fields, field ≠ []) :
    splitFields [] (writeFields fields) = fields := by
  induction fields with
  | nil => rfl
  | cons field fields ih =>
    obtain ⟨hfield, hfields⟩ := List.forall_mem_cons.mp h
    rw [writeFields, List.map_cons] at *
    cases fields with
    | nil =>
      have last := splitFields_writeField [] field []
      rw [List.append_nil] at last
      rw [List.map_nil, List.intercalate_singleton, last, List.nil_append, splitFields_nil hfield]
    | cons next fields =>
      rw [List.map_cons, List.intercalate_cons_cons, List.append_assoc, List.singleton_append,
        splitFields_writeField, List.nil_append, splitFields_space hfield]
      exact congrArg _ (ih hfields)

end Placeholder

/-! ### Fields in quotes

Between brackets the fields in quotes are the tokens of a list of texts, for which there is a tree
already: the one of the list as a value (`Value.tree`). Only the commas are written without the
blank that a displayed list has. -/

/-- Texts as a value. -/
def Value.ofTexts (texts : List String) : Value :=
  .list (texts.map .text)

/-- Texts come back as they were. -/
theorem Value.reread_ofTexts (texts : List String) : (ofTexts texts).reread = ofTexts texts := by
  rw [reread_eq_self_iff, ofTexts, holds_list_iff]
  rintro ⟨v, hv, hholds⟩
  obtain ⟨s, -, rfl⟩ := List.mem_map.mp hv
  exact not_holds_text hholds

namespace Lexeme

open ExScript.Expr (Derivation)

/-- Fields in quotes, with commas between them, are the tokens of the items of a list. -/
theorem scansTo_quoted (field : List Char) (fields : List (List Char)) {rest : List Char} :
    ScansTo ([','].intercalate ((field :: fields).map Text.writeDouble) ++ rest)
      (.text (String.ofList field) ::
        (Value.treeRest (fields.map fun f => .text (String.ofList f))).tokens) rest := by
  induction fields generalizing field with
  | nil =>
    rw [List.map_singleton, List.intercalate_singleton]
    exact scansTo_writeDouble field
  | cons next fields ih =>
    have comma {text : List Char} : ScansTo (',' :: text) [.comma] text := scansTo_symbol rfl rfl
    have scanned := ((scansTo_writeDouble field).trans comma).trans (ih next)
    rw [List.map_cons, List.map_cons, List.intercalate_cons_cons, ← List.map_cons,
      List.append_assoc, List.append_assoc, List.singleton_append]
    simpa [Value.treeRest, Value.tree, Derivation.tokens] using scanned

/-- Fields in quotes between brackets are the tokens of a list. -/
theorem scansTo_quotedList (fields : List (List Char)) :
    ScansTo ('[' :: ([','].intercalate (fields.map Text.writeDouble) ++ [']']))
      (Value.ofTexts (fields.map String.ofList)).tree.tokens [] := by
  have opened {text : List Char} : ScansTo ('[' :: text) [.leftBracket] text :=
    scansTo_symbol rfl rfl
  have closed : ScansTo [']'] [.rightBracket] [] := scansTo_symbol rfl rfl
  cases fields with
  | nil => exact opened.trans closed
  | cons field fields =>
    have scanned := (opened.trans (scansTo_quoted field fields)).trans closed
    simpa [Value.ofTexts, Value.tree, Derivation.tokens, Function.comp_def] using scanned

end Lexeme

namespace Placeholder

/-! ### Substitution

The two texts are fixed, so what becomes of them is found by going through them once. -/

theorem substitute_quoted (arguments : String) :
    substitute "<q-args>" arguments = String.ofList (Text.writeDouble arguments.toList) := by
  have hread : read? "q-args>".toList = some (.quoted, []) := by decide
  show String.ofList (substituteUpTo arguments.toList 8 ('<' :: "q-args>".toList)) = _
  rw [substituteUpTo, if_pos rfl, hread]
  simp [substituteUpTo, expand]

theorem substitute_fieldList (arguments : String) :
    substitute "[<f-args>]" arguments =
      String.ofList ('[' :: ([','].intercalate
        ((splitFields [] arguments.toList).map Text.writeDouble) ++ [']'])) := by
  have hread : read? "f-args>]".toList = some (.fields, [']']) := by decide
  show String.ofList (substituteUpTo arguments.toList 10 ('[' :: '<' :: "f-args>]".toList)) = _
  rw [substituteUpTo, if_neg (by decide), substituteUpTo, if_pos rfl, hread]
  simp [substituteUpTo, expand]

/-- **Arguments arrive as they are.** Whatever they hold, they are the value of the expression that
`<q-args>` stands for, and fields that are written as arguments, if none of them is empty, are the
items of the value of the list that `<f-args>` stands for between brackets. -/
theorem arguments_arrive :
    (∀ arguments : String, ∃ e,
      Expression.parse (substitute "<q-args>" arguments) = .ok e ∧
        ∀ vars, e.eval vars = .ok (.text arguments)) ∧
      ∀ fields : List String, (∀ field ∈ fields, field ≠ "") → ∃ e,
        Expression.parse (substitute "[<f-args>]"
            (String.ofList (writeFields (fields.map String.toList)))) = .ok e ∧
          ∀ vars, e.eval vars = .ok (.list (fields.map .text)) := by
  constructor
  · intro arguments
    have scanned : Lexeme.ScansTo (Text.writeDouble arguments.toList) [.text arguments] [] := by
      have whole := @Lexeme.scansTo_writeDouble [] arguments.toList
      rwa [List.append_nil, String.ofList_toList] at whole
    rw [substitute_quoted]
    exact Value.parse_of_scansTo (v := .text arguments) (by rwa [String.toList_ofList])
  · intro fields hfields
    have hchars : ∀ field ∈ fields.map String.toList, field ≠ [] := by
      intro field hfield
      obtain ⟨s, hs, rfl⟩ := List.mem_map.mp hfield
      exact fun hnil => hfields s hs (String.toList_eq_nil_iff.mp hnil)
    have htexts : (fields.map String.toList).map String.ofList = fields := by
      simp [List.map_map, Function.comp_def]
    have scanned := Lexeme.scansTo_quotedList (fields.map String.toList)
    rw [htexts] at scanned
    rw [substitute_fieldList, String.toList_ofList, splitFields_writeFields hchars]
    have expressed := Value.parse_of_scansTo (v := .ofTexts fields) (s := String.ofList
      ('[' :: ([','].intercalate ((fields.map String.toList).map Text.writeDouble) ++ [']'])))
      (by rwa [String.toList_ofList])
    rwa [Value.reread_ofTexts] at expressed

/-- A blank, a backslash, a quote with a placeholder behind it and a bar, as fields. -/
theorem arguments_arrive_fourFields :
    ∃ e, Expression.parse (substitute "[<f-args>]" "a\\ b \\\\ \"<args> '|\\\u3000") = .ok e ∧
      ∀ vars, e.eval vars =
        .ok (.list [.text "a b", .text "\\", .text "\"<args>", .text "'|\u3000"]) := by
  have written : String.ofList (writeFields
      (["a b", "\\", "\"<args>", "'|\u3000"].map String.toList)) =
        "a\\ b \\\\ \"<args> '|\\\u3000" := by
    decide
  have expressed := arguments_arrive.2 ["a b", "\\", "\"<args>", "'|\u3000"] (by decide)
  rwa [written] at expressed

end Placeholder

end ExScript
