import ExScript.Value

/-!
# The order of values

Values of all kinds can be compared, and how two of them compare does not depend on which one is
named first. That is all that can be said of values in general: a text and a number are compared as
numbers and two texts by their characters, so values of mixed kinds can go round in a circle, and a
text compares equal to the number that it counts as.

Within one type nothing of this can happen. The values of a *type* are numbers, or texts, or lists
whose items are of one type in turn, and these are in a total order in which only a value itself is
equal to it. The library has this for lists in the lexicographic order of items that are in such an
order, so there is one step for each way to form a type, and the only thing to do for lists is to
move between lists of values of a type and values that are such lists.

## Main definitions

* `ElementType` — the types of values
* `Value.HasType` — the values of a type

## Main results

* `Value.order_swap` — the other way round, values compare the other way round
* `Value.orderOn_total` — the order on the values of a type
* `Value.order_isTotalOrder` — both together
-/

namespace ExScript

/-! ### Types -/

/-- A type of values: numbers, texts, or lists of values of one type. -/
inductive ElementType where
  | number
  | text
  | list (items : ElementType)
  deriving DecidableEq, Repr

namespace Value

/-- `HasType v t`: the value is one of the type. The empty list is a list of values of any type. -/
inductive HasType : Value → ElementType → Prop where
  | number {n} : HasType (.number n) .number
  | text {s} : HasType (.text s) .text
  | list {items t} : (∀ v ∈ items, HasType v t) → HasType (.list items) (.list t)

/-- A value of a list type has a list of values of the type for its items. -/
theorem HasType.exists_items {v : Value} {t : ElementType} (h : v.HasType (.list t)) :
    ∃ items : List { v : Value // v.HasType t }, v = .list (items.map Subtype.val) := by
  cases h with
  | @list items _ hitems =>
    exact ⟨items.attachWith _ hitems, by rw [List.attachWith_map_subtype_val]⟩

/-! ### The other way round -/

mutual

/-- Named the other way round, two values compare the other way round. -/
theorem order_swap : (a b : Value) → b.order a = (a.order b).swap
  | .text s, .text t => by
    rw [order, order]
    exact Std.OrientedCmp.eq_swap
  | .list as, .list bs => by
    rw [order, order]
    exact orderItems_swap as bs
  | .number _, .number _ | .number _, .text _ | .number _, .list _ | .text _, .number _
  | .text _, .list _ | .list _, .number _ | .list _, .text _ => by
    simp only [order]
    exact Std.OrientedCmp.eq_swap

theorem orderItems_swap : (as bs : List Value) → orderItems bs as = (orderItems as bs).swap
  | [], [] => rfl
  | [], _ :: _ => rfl
  | _ :: _, [] => rfl
  | a :: as, b :: bs => by
    rw [orderItems, orderItems, order_swap a b]
    cases a.order b with
    | eq => exact orderItems_swap as bs
    | lt | gt => rfl

end

/-! ### Lists -/

/-- Lists are in the lexicographic order of their items. -/
theorem orderItems_eq_compareLex (as bs : List Value) :
    orderItems as bs = List.compareLex order as bs := by
  induction as generalizing bs with
  | nil => cases bs <;> rfl
  | cons a as ih =>
    cases bs with
    | nil => rfl
    | cons b bs =>
      rw [orderItems, List.compareLex_cons_cons, ← ih]
      cases a.order b <;> rfl

/-- How the values of one type compare. -/
def orderOn (t : ElementType) (a b : { v : Value // v.HasType t }) : Ordering :=
  a.val.order b.val

theorem compareLex_orderOn {t : ElementType} (as bs : List { v : Value // v.HasType t }) :
    List.compareLex (orderOn t) as bs =
      List.compareLex order (as.map Subtype.val) (bs.map Subtype.val) := by
  induction as generalizing bs with
  | nil => cases bs <;> rfl
  | cons a as ih =>
    cases bs with
    | nil => rfl
    | cons b bs =>
      rw [List.map_cons, List.map_cons, List.compareLex_cons_cons, List.compareLex_cons_cons, ih]
      rfl

theorem order_list {t : ElementType} (as bs : List { v : Value // v.HasType t }) :
    order (.list (as.map Subtype.val)) (.list (bs.map Subtype.val)) =
      List.compareLex (orderOn t) as bs := by
  rw [order, orderItems_eq_compareLex, compareLex_orderOn]

/-! ### Within one type -/

instance (t : ElementType) : Std.OrientedCmp (orderOn t) where
  eq_swap := order_swap _ _

/-- Numbers are compared as integers, and different numbers are different integers. -/
instance : Std.LawfulEqCmp (compareOn Int64.toInt) where
  compare_self := Std.ReflCmp.compare_self
  eq_of_compare h := Int64.toInt_inj.mp (Std.LawfulEqCmp.eq_of_compare h)

/-- Values that are all made from something in a total order, and are compared as what they are made
from, are in a total order themselves. -/
theorem total_of_surjective {t : ElementType} {α : Type} (cmp : α → α → Ordering) [Std.TransCmp cmp]
    [Std.LawfulEqCmp cmp] (make : α → { v : Value // v.HasType t })
    (hmake : ∀ v, ∃ a, make a = v) (h : ∀ a b, orderOn t (make a) (make b) = cmp a b) :
    Std.TransCmp (orderOn t) ∧ Std.LawfulEqCmp (orderOn t) := by
  refine ⟨⟨fun {v w x} hvw hwx => ?_⟩, ⟨fun {v w} hvw => ?_⟩⟩
  · obtain ⟨a, rfl⟩ := hmake v
    obtain ⟨b, rfl⟩ := hmake w
    obtain ⟨c, rfl⟩ := hmake x
    rw [h] at hvw hwx ⊢
    exact Std.TransCmp.isLE_trans hvw hwx
  · obtain ⟨a, rfl⟩ := hmake v
    obtain ⟨b, rfl⟩ := hmake w
    rw [h] at hvw
    exact congrArg make (Std.LawfulEqCmp.eq_of_compare hvw)

/-- **The values of a type are in a total order**, in which a value is equal to itself alone. -/
theorem orderOn_total (t : ElementType) :
    Std.TransCmp (orderOn t) ∧ Std.LawfulEqCmp (orderOn t) := by
  induction t with
  | number =>
    refine total_of_surjective (compareOn Int64.toInt) (fun n => ⟨.number n, .number⟩) ?_
      fun m n => ?_
    · rintro ⟨_, ⟨⟩⟩
      exact ⟨_, rfl⟩
    · show order (.number m) (.number n) = compareOn Int64.toInt m n
      simp only [order, toInt64, compareOn]
  | text =>
    refine total_of_surjective compare (fun s => ⟨.text s, .text⟩) ?_ fun s t => ?_
    · rintro ⟨_, ⟨⟩⟩
      exact ⟨_, rfl⟩
    · show order (.text s) (.text t) = compare s t
      rw [order]
  | list t ih =>
    -- the order of the items, for the library's order on lists
    obtain ⟨_, _⟩ := ih
    refine total_of_surjective (List.compareLex (orderOn t))
      (fun items => ⟨.list (items.map Subtype.val), .list ?_⟩) ?_ order_list
    · exact List.forall_mem_map.mpr fun v _ => v.property
    · rintro ⟨_, h⟩
      obtain ⟨items, rfl⟩ := h.exists_items
      exact ⟨items, rfl⟩

/-- **Values can be compared in any order, and those of one type are in a total order.** Of any two
values the second compares to the first the other way round than the first to the second. Values of
one type compare equal only if they are the same, and what is not greater than something that is not
greater than a third value is not greater than that one, and less if both are less. -/
theorem order_isTotalOrder :
    (∀ a b : Value, b.order a = (a.order b).swap) ∧
      ∀ t : ElementType,
        (∀ a b : Value, a.HasType t → b.HasType t → (a.order b = .eq ↔ a = b)) ∧
          ∀ a b c : Value, a.HasType t → b.HasType t → c.HasType t →
            ((a.order b).isLE → (b.order c).isLE → (a.order c).isLE) ∧
              (a.order b = .lt → b.order c = .lt → a.order c = .lt) := by
  refine ⟨order_swap, fun t => ?_⟩
  obtain ⟨_, _⟩ := orderOn_total t
  refine ⟨fun a b ha hb => ?_, fun a b c ha hb hc => ⟨?_, ?_⟩⟩
  · have same : orderOn t ⟨a, ha⟩ ⟨b, hb⟩ = .eq ↔ Subtype.mk a ha = ⟨b, hb⟩ :=
      Std.LawfulEqCmp.compare_eq_iff_eq
    rwa [Subtype.mk.injEq] at same
  · have le : (orderOn t ⟨a, ha⟩ ⟨b, hb⟩).isLE → (orderOn t ⟨b, hb⟩ ⟨c, hc⟩).isLE →
        (orderOn t ⟨a, ha⟩ ⟨c, hc⟩).isLE := Std.TransCmp.isLE_trans
    exact le
  · have lt : orderOn t ⟨a, ha⟩ ⟨b, hb⟩ = .lt → orderOn t ⟨b, hb⟩ ⟨c, hc⟩ = .lt →
        orderOn t ⟨a, ha⟩ ⟨c, hc⟩ = .lt := Std.TransCmp.lt_trans
    exact lt

/-- Of lists of lists of texts, a list of the empty list is less than `[['a']]`, which is less than
`[['a', '']]`: a list that ends first is less at every depth. -/
theorem order_isTotalOrder_nestedLists :
    (Value.list [.list []]).HasType (.list (.list .text)) ∧
      (Value.list [.list [.text "a"]]).HasType (.list (.list .text)) ∧
      (Value.list [.list [.text "a", .text ""]]).HasType (.list (.list .text)) ∧
      (Value.list [.list []]).order (.list [.list [.text "a"]]) = .lt ∧
      (Value.list [.list [.text "a"]]).order (.list [.list [.text "a", .text ""]]) = .lt ∧
      (Value.list [.list []]).order (.list [.list [.text "a", .text ""]]) = .lt := by
  have texts (ss : List String) : (Value.list (ss.map .text)).HasType (.list .text) :=
    .list (by simp [HasType.text])
  have alone (ss : List String) :
      (Value.list [.list (ss.map .text)]).HasType (.list (.list .text)) :=
    .list (by simpa using texts ss)
  have first : (Value.list [.list []]).order (.list [.list [.text "a"]]) = .lt := by decide
  have second :
      (Value.list [.list [.text "a"]]).order (.list [.list [.text "a", .text ""]]) = .lt := by
    decide
  exact ⟨alone [], alone ["a"], alone ["a", ""], first, second,
    ((order_isTotalOrder.2 _).2 _ _ _ (alone []) (alone ["a"]) (alone ["a", ""])).2 first second⟩

/-- Values of mixed kinds go round in a circle. -/
example : (Value.text "10").order (.text "9") = .lt ∧ (Value.text "9").order (.number 9) = .eq ∧
    (Value.number 9).order (.text "10") = .lt := by
  decide

end Value

end ExScript
