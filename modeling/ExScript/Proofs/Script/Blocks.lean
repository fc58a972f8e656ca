import ExScript.Proofs.Script.Reading

/-!
# Scripts are the rows of the grammar

The parser takes one statement after the other into a draft: the statements of the innermost block
and a stack of frames, one for each block that is open. Here the draft and the grammar are brought
together. What the parser does with a statement is a matter of its mark alone (`Draft.step_iff`), so
both directions are about a relation with one rule for each thing a mark can do to a draft.

*Sound*: a draft holds derivations. The row so far is cut at the frames into the part that belongs
to each open block (`Draft.Holds`), a mark keeps this, and when no frame is left the whole row is a
block.

*Complete*: a derived row is taken in from any draft and leaves the frames as they were, so the
induction on the derivation never has to look at what stands around the row.

## What the two directions are worth

Soundness alone would be true of a parser that refuses every script, and completeness of one that
accepts too much, so neither is a description of the parser. Together with the tree they say even
more: since the function has one result, the grammar has one tree for each row, and nothing about
ambiguity has to be proved about the grammar itself.

What is not said here is which error a script is refused with. It depends on the first statement
that does not fit, which the grammar does not know, and on what is open there.

## Trees and rows

A draft keeps what it holds latest first, and the branches of a choice in the order in which they
were closed. The last branch that is open is special, since its condition is in the frame and its
body in the draft: it becomes a branch when something closes it. In the grammar a choice is derived
from front to back, with all later branches in one part. So the branches have to be turned around
once, and this is done in `Frame.Opened.derives_choose` for the one direction and by the rule for
branches in `Part.Advances` for the other.

## Main results

* `Draft.step_iff` — a statement is taken in if it has a mark that has a place in the draft
* `Draft.Holds.steps` — what has been taken in is derived
* `Derives.advances` — what is derived is taken in
* `parse_iff_derives` — a script can be read if and only if its statements form a block
-/

namespace ExScript

namespace Script

/-! ### Drafts

Ten rules for ten things that can happen. A mark that has no rule for a draft has no place there. -/

/-- What a mark does to a draft, where it has a place. -/
inductive Draft.Takes : Draft → Mark → Draft → Prop where
  | plain {body outer s} : Takes ⟨body, outer⟩ (.plain s) ⟨s :: body, outer⟩
  | openWhile {body outer condition} :
    Takes ⟨body, outer⟩ (.openWhile (.expression condition))
      ⟨[], (.whileBody condition, body) :: outer⟩
  | openFor {body outer name items} :
    Takes ⟨body, outer⟩ (.openFor name items) ⟨[], (.forBody name items, body) :: outer⟩
  | openIf {body outer condition} :
    Takes ⟨body, outer⟩ (.openIf (.expression condition))
      ⟨[], (.ifBody [] condition, body) :: outer⟩
  | endWhile {body condition before outer} :
    Takes ⟨body, (.whileBody condition, before) :: outer⟩ (.endLoop .whileLoop)
      ⟨.whileLoop (.expression condition) body.reverse :: before, outer⟩
  | endFor {body name items before outer} :
    Takes ⟨body, (.forBody name items, before) :: outer⟩ (.endLoop .forLoop)
      ⟨.forLoop name items body.reverse :: before, outer⟩
  | elseIf {body closed condition before outer next} :
    Takes ⟨body, (.ifBody closed condition, before) :: outer⟩ (.elseIf (.expression next))
      ⟨[], (.ifBody (closed ++ [(condition, body.reverse)]) next, before) :: outer⟩
  | elseMark {body closed condition before outer} :
    Takes ⟨body, (.ifBody closed condition, before) :: outer⟩ .elseMark
      ⟨[], (.elseBody (closed ++ [(condition, body.reverse)]), before) :: outer⟩
  | endIf {body closed condition before outer} :
    Takes ⟨body, (.ifBody closed condition, before) :: outer⟩ .endIf
      ⟨choose (closed ++ [(condition, body.reverse)]) none :: before, outer⟩
  | endElse {body closed before outer} :
    Takes ⟨body, (.elseBody closed, before) :: outer⟩ .endIf
      ⟨choose closed (some body.reverse) :: before, outer⟩

namespace Draft

variable {draft draft' : Draft} {statement : List Char} {mark : Mark}

/-- A statement with a mark that has a place is taken in. For an `:elseif` the condition is read
now. -/
theorem Takes.step (h : draft.Takes mark draft') (hmark : Reads statement mark) :
    draft.step statement = .ok draft' := by
  obtain ⟨line, hline, hstands⟩ := reads_iff.mp hmark
  rw [Draft.step, hline]
  cases h with
  | elseIf =>
    cases hstands with
    | elseIf he =>
      show (Expression.parse _).map _ = _
      rw [he]
      rfl
  | _ =>
    cases hstands
    rfl

/-- A divider that has a place in a draft stands for something that the draft takes. -/
theorem takes_of_divide {d : Divider} (h : draft.divide d = .ok draft') :
    ∃ mark, (Line.divider d).Stands mark ∧ draft.Takes mark draft' := by
  obtain ⟨body, outer⟩ := draft
  cases outer with
  | nil => cases d <;> cases h
  | cons frame outer =>
    obtain ⟨frame, before⟩ := frame
    cases frame with
    | whileBody condition =>
      cases d with
      | endLoop kind =>
        cases kind with
        | whileLoop =>
          cases h
          exact ⟨_, .endLoop, .endWhile⟩
        | forLoop => cases h
      | _ => cases h
    | forBody name items =>
      cases d with
      | endLoop kind =>
        cases kind with
        | whileLoop => cases h
        | forLoop =>
          cases h
          exact ⟨_, .endLoop, .endFor⟩
      | _ => cases h
    | ifBody closed condition =>
      cases d with
      | elseIfBranch argument =>
        obtain ⟨next, hnext, rfl⟩ := exists_of_map_eq_ok (x := Expression.parse _) h
        exact ⟨_, .elseIf hnext, .elseIf⟩
      | elseBranch =>
        cases h
        exact ⟨_, .elseMark, .elseMark⟩
      | endIf =>
        cases h
        exact ⟨_, .endIf, .endIf⟩
      | endLoop kind => cases h
    | elseBody closed =>
      cases d with
      | endIf =>
        cases h
        exact ⟨_, .endIf, .endElse⟩
      | _ => cases h

/-- **Taking in a statement is taking in its mark.** From here on neither keywords nor expressions
come up. -/
theorem step_iff :
    draft.step statement = .ok draft' ↔ ∃ mark, Reads statement mark ∧ draft.Takes mark draft' := by
  constructor
  · intro h
    cases hline : readLine statement with
    | error e => simp [Draft.step, hline] at h
    | ok line =>
      rw [Draft.step, hline] at h
      cases line with
      | plain s =>
        cases h
        exact ⟨_, reads_of_readLine hline .plain, .plain⟩
      | openWhile condition =>
        cases h
        exact ⟨_, reads_of_readLine hline .openWhile, .openWhile⟩
      | openFor name items =>
        cases h
        exact ⟨_, reads_of_readLine hline .openFor, .openFor⟩
      | openIf condition =>
        cases h
        exact ⟨_, reads_of_readLine hline .openIf, .openIf⟩
      | divider d =>
        obtain ⟨mark, hstands, htakes⟩ := takes_of_divide h
        exact ⟨mark, reads_of_readLine hline hstands, htakes⟩
  · rintro ⟨mark, hmark, htakes⟩
    exact htakes.step hmark

end Draft

/-! ### What has been taken in is derived

The row of a draft is a row for each open block, what opened the block, and so on inwards. An open
block has no derivation yet, only what would be its beginning. -/

/-- The row of statements that an open block has behind it when its current body begins. -/
inductive Frame.Opened : Frame → List (List Char) → Prop where
  | whileBody {first condition} :
    Reads first (.openWhile (.expression condition)) → Opened (.whileBody condition) [first]
  | forBody {first name items} :
    Reads first (.openFor name items) → Opened (.forBody name items) [first]
  | ifBody {first condition} :
    Reads first (.openIf (.expression condition)) → Opened (.ifBody [] condition) [first]
  | elseIf {closed condition row body rows first next} :
    Opened (.ifBody closed condition) row → Derives (.block body) rows →
      Reads first (.elseIf (.expression next)) →
      Opened (.ifBody (closed ++ [(condition, body)]) next) (row ++ rows ++ [first])
  | elseBody {closed condition row body rows first} :
    Opened (.ifBody closed condition) row → Derives (.block body) rows →
      Reads first .elseMark →
      Opened (.elseBody (closed ++ [(condition, body)])) (row ++ rows ++ [first])

/-- A branch that is open closes with whatever branches and else come behind it. -/
theorem Frame.Opened.derives_choose {closed rest : Branches} {condition : Expression}
    {body : List Stmt} {otherwise : Option (List Stmt)} {last : List Char}
    {row rows branchRows elseRow : List (List Char)}
    (h : Opened (.ifBody closed condition) row) (hbody : Derives (.block body) rows)
    (hrest : Derives (.branches rest) branchRows) (helse : Derives (.otherwise otherwise) elseRow)
    (hlast : Reads last .endIf) :
    Derives (.statement (choose (closed ++ (condition, body) :: rest) otherwise))
      (row ++ rows ++ branchRows ++ elseRow ++ [last]) := by
  generalize hframe : Frame.ifBody closed condition = frame at h
  induction h generalizing closed condition body rest rows branchRows with
  | whileBody | forBody | elseBody => cases hframe
  | ifBody first =>
    cases hframe
    exact .choose first hbody hrest helse hlast
  | elseIf before hbefore first ih =>
    cases hframe
    have derived := ih hbefore (.branch first hbody hrest) rfl
    simpa using derived

/-- The row of statements that a draft holds: for each block that is open a derived row in front of
it and the row that opened it, and behind them a row for the innermost body. -/
inductive Draft.Holds : Draft → List (List Char) → Prop where
  /-- No block is open: the row is a block. -/
  | top {body row} : Derives (.block body.reverse) row → Holds ⟨body, []⟩ row
  /-- What is outside of the innermost block is a draft of its own. -/
  | inside {body before frame outer row opening inner} :
    Holds ⟨before, outer⟩ row → frame.Opened opening → Derives (.block body.reverse) inner →
      Holds ⟨body, (frame, before) :: outer⟩ (row ++ opening ++ inner)

/-- A block with one more statement at its end. -/
theorem Derives.snoc {xs : List Stmt} {x : Stmt} {rows row : List (List Char)}
    (h : Derives (.block xs) rows) (hx : Derives (.statement x) row) :
    Derives (.block (xs ++ [x])) (rows ++ row) := by
  induction xs generalizing rows with
  | nil =>
    cases h
    simpa using Derives.cons hx .nil
  | cons y ys ih =>
    cases h with
    | cons hy hys => simpa using Derives.cons hy (ih hys)

namespace Draft.Holds

variable {draft draft' : Draft} {row : List (List Char)} {statement : List Char} {mark : Mark}

/-- At the beginning there is nothing. -/
theorem empty : Holds { } [] := by
  have none : Derives (.block ([] : List Stmt).reverse) [] := .nil
  exact .top none

/-- A block in which nothing stands yet. -/
theorem openBlock {before : List Stmt} {outer : List (Frame × List Stmt)} {frame : Frame}
    {opening : List (List Char)} (h : Holds ⟨before, outer⟩ row) (hframe : frame.Opened opening) :
    Holds ⟨[], (frame, before) :: outer⟩ (row ++ opening) := by
  have none : Derives (.block ([] : List Stmt).reverse) [] := .nil
  simpa using inside h hframe none

/-- A statement at the end of the innermost body. -/
theorem push {body : List Stmt} {outer : List (Frame × List Stmt)} {x : Stmt}
    {rows : List (List Char)} (h : Holds ⟨body, outer⟩ row) (hx : Derives (.statement x) rows) :
    Holds ⟨x :: body, outer⟩ (row ++ rows) := by
  cases h with
  | top hbody =>
    refine .top ?_
    rw [List.reverse_cons]
    exact hbody.snoc hx
  | inside before opened hbody =>
    rw [List.append_assoc]
    refine .inside before opened ?_
    rw [List.reverse_cons]
    exact hbody.snoc hx

/-- A mark keeps what a draft holds. -/
theorem takes (h : draft.Holds row) (htakes : draft.Takes mark draft')
    (hmark : Reads statement mark) : draft'.Holds (row ++ [statement]) := by
  cases htakes with
  | plain => exact h.push (.plain hmark)
  | openWhile => exact h.openBlock (.whileBody hmark)
  | openFor => exact h.openBlock (.forBody hmark)
  | openIf => exact h.openBlock (.ifBody hmark)
  | endWhile =>
    cases h with
    | inside before opened hbody =>
      cases opened with
      | whileBody first => simpa using before.push (.whileLoop first hbody hmark)
  | endFor =>
    cases h with
    | inside before opened hbody =>
      cases opened with
      | forBody first => simpa using before.push (.forLoop first hbody hmark)
  | elseIf =>
    cases h with
    | inside before opened hbody => simpa using before.openBlock (opened.elseIf hbody hmark)
  | elseMark =>
    cases h with
    | inside before opened hbody => simpa using before.openBlock (opened.elseBody hbody hmark)
  | endIf =>
    cases h with
    | inside before opened hbody =>
      simpa using before.push (opened.derives_choose hbody .noBranch .noElse hmark)
  | endElse =>
    cases h with
    | inside before opened hbody =>
      cases opened with
      | elseBody opened hlast first =>
        simpa using before.push
          (opened.derives_choose hlast .noBranch (.elseBody first hbody) hmark)

/-- And so do all statements that are taken in, one after the other. -/
theorem steps {statements : List (List Char)} (h : draft.Holds row)
    (hsteps : draft.steps statements = .ok draft') : draft'.Holds (row ++ statements) := by
  induction statements generalizing draft row with
  | nil =>
    cases hsteps
    simpa using h
  | cons statement rest ih =>
    rw [Draft.steps] at hsteps
    cases hstep : draft.step statement with
    | error e => simp [hstep] at hsteps
    | ok next =>
      rw [hstep] at hsteps
      obtain ⟨mark, hmark, htakes⟩ := step_iff.mp hstep
      simpa using ih (h.takes htakes hmark) hsteps

end Draft.Holds

/-- **What the parser accepts is derived**: at the end no block may be open. -/
theorem derives_of_ofStatements {statements : List (List Char)} {body : List Stmt}
    (h : ofStatements statements = .ok body) : Derives (.block body) statements := by
  rw [ofStatements] at h
  cases hsteps : ({ } : Draft).steps statements with
  | error e => simp [hsteps] at h
  | ok draft =>
    have holds := Draft.Holds.empty.steps hsteps
    rw [hsteps] at h
    cases holds with
    | top hbody =>
      cases h
      exact hbody
    | inside => cases h

/-! ### What is derived is taken in

Rows are taken in from the front, so the rest of the row is a parameter of everything that follows.
-/

/-- The first statement of a row. -/
theorem Draft.Takes.steps {draft draft' : Draft} {statement : List Char} {mark : Mark}
    {rest : List (List Char)} (h : draft.Takes mark draft') (hmark : Reads statement mark) :
    draft.steps (statement :: rest) = draft'.steps rest := by
  rw [Draft.steps, h.step hmark]

/-- What a row does to any draft that it is put behind, if its part has a place there. The branches
of a choice leave its last branch open, and an else ends with the choice. -/
def Part.Advances (row : List (List Char)) : Part → Prop
  | block xs => ∀ body outer rest,
    Draft.steps ⟨body, outer⟩ (row ++ rest) = Draft.steps ⟨xs.reverse ++ body, outer⟩ rest
  | statement x => ∀ body outer rest,
    Draft.steps ⟨body, outer⟩ (row ++ rest) = Draft.steps ⟨x :: body, outer⟩ rest
  | branches others => ∀ closed condition (xs : List Stmt) before outer rest,
    ∃ closed' condition' xs',
      closed' ++ [(condition', xs')] = closed ++ (condition, xs) :: others ∧
        Draft.steps ⟨xs.reverse, (.ifBody closed condition, before) :: outer⟩ (row ++ rest) =
          Draft.steps ⟨xs'.reverse, (.ifBody closed' condition', before) :: outer⟩ rest
  | otherwise o => ∀ closed condition (xs : List Stmt) before outer last rest, Reads last .endIf →
    Draft.steps ⟨xs.reverse, (.ifBody closed condition, before) :: outer⟩ (row ++ last :: rest) =
      Draft.steps ⟨choose (closed ++ [(condition, xs)]) o :: before, outer⟩ rest

/-- **A derived row is taken in whole**, wherever its part has a place. Each rule of the grammar is
a row of marks with rows between them, so each case is a chain of `Takes.steps` and induction
hypotheses. -/
theorem Derives.advances {part : Part} {row : List (List Char)} (h : Derives part row) :
    part.Advances row := by
  induction h with
  | nil =>
    intro body outer rest
    rfl
  | cons _ _ first others =>
    intro body outer rest
    rw [List.append_assoc, first, others]
    simp
  | plain first =>
    intro body outer rest
    exact Draft.Takes.plain.steps first
  | whileLoop first _ last ih =>
    intro body outer rest
    rw [List.append_assoc, List.cons_append, Draft.Takes.openWhile.steps first, ih,
      List.singleton_append, Draft.Takes.endWhile.steps last]
    simp
  | forLoop first _ last ih =>
    intro body outer rest
    rw [List.append_assoc, List.cons_append, Draft.Takes.openFor.steps first, ih,
      List.singleton_append, Draft.Takes.endFor.steps last]
    simp
  | @choose _ last condition xs _ _ row branchRows elseRow first _ _ _ hlast ihBody ihRest ihElse =>
    intro body outer rest
    obtain ⟨closed, condition', xs', hclosed, hbranches⟩ :=
      ihRest [] condition xs body outer (elseRow ++ last :: rest)
    simp only [List.append_assoc, List.cons_append, List.nil_append]
    rw [Draft.Takes.openIf.steps first, ihBody, List.append_nil, hbranches,
      ihElse closed condition' xs' body outer last rest hlast, hclosed, List.nil_append]
  | noBranch =>
    intro closed condition xs before outer rest
    exact ⟨closed, condition, xs, rfl, rfl⟩
  | @branch _ next ys _ row rows first _ _ ihBody ihRest =>
    intro closed condition xs before outer rest
    obtain ⟨closed', condition', xs', hclosed, hbranches⟩ :=
      ihRest (closed ++ [(condition, xs)]) next ys before outer rest
    refine ⟨closed', condition', xs', by simpa using hclosed, ?_⟩
    rw [List.append_assoc, List.cons_append, Draft.Takes.elseIf.steps first, ihBody,
      List.append_nil, List.reverse_reverse, hbranches]
  | noElse =>
    intro closed condition xs before outer last rest hlast
    rw [List.nil_append, Draft.Takes.endIf.steps hlast, List.reverse_reverse]
  | elseBody first _ ih =>
    intro closed condition xs before outer last rest hlast
    rw [List.cons_append, Draft.Takes.elseMark.steps first, ih, List.append_nil,
      Draft.Takes.endElse.steps hlast, List.reverse_reverse, List.reverse_reverse]

/-- **What is derived is accepted**, with the tree of the derivation. -/
theorem ofStatements_of_derives {statements : List (List Char)} {body : List Stmt}
    (h : Derives (.block body) statements) : ofStatements statements = .ok body := by
  have hsteps : ({ } : Draft).steps (statements ++ []) = Draft.steps ⟨body.reverse ++ [], []⟩ [] :=
    h.advances [] [] []
  rw [List.append_nil, List.append_nil] at hsteps
  rw [ofStatements, hsteps]
  show Except.ok body.reverse.reverse = _
  rw [List.reverse_reverse]

/-! ### Scripts -/

/-- **A script can be read if and only if its statements form a block**, and it is read as the tree
of that block. Written out the tree gives the statements again, each once and in its place. -/
theorem parse_iff_derives (text : String) :
    (∀ body, parse text = .ok body ↔ Derives (.block body) (statements text.toList)) ∧
      ∀ body, parse text = .ok body →
        List.Forall₂ Reads (statements text.toList) (Stmt.marksOfAll body) := by
  constructor
  · intro body
    exact ⟨derives_of_ofStatements, ofStatements_of_derives⟩
  · intro body h
    exact (derives_of_ofStatements h).marks

end Script

end ExScript
