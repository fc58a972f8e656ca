import ExScript.UserCommand.Listing
import Mathlib.Data.List.Nodup

/-!
# Listings of user commands

The rows of a listing are made from the entries of a registry in whatever order these come, and then
sorted. Rows that differ only in case have the same place in this order, and would stay as they
came. If there are none, the order in which the entries came is forgotten: a listing holds the row
of each user command that was asked for, once, and its rows increase strictly.

It is the entries that are sorted here, by what their rows look like in small letters. This is the
same (`Registry.listingRows_eq`), and says of each row whose it is.

## Main definitions

* `Registry.RowsDiffer` — no two rows of a listing differ in case alone
* `Registry.listedEntries` — the entries that a listing shows, in the order of their rows

## Main results

* `Registry.mem_listedEntries_iff` — which entries are shown
* `Registry.RowsDiffer.listedEntries_eq` — the order of the entries is forgotten
* `Registry.listing_of_any_order` — listings are complete, sorted, and do not depend on an order
-/

namespace ExScript.Registry

variable {registry : Registry} {entries : List (String × UserCommand)} {start : String}

/-- What an entry is sorted by: its row in small letters. -/
def entryKey (e : String × UserCommand) : String :=
  sortKey (listingRow e.1 e.2)

/-- Whether the name of an entry starts with a text. -/
def isListed (start : String) (e : String × UserCommand) : Bool :=
  start.toList.isPrefixOf e.1.toList

/-- The entries that a listing shows, in the order of their rows. -/
def listedEntries (entries : List (String × UserCommand)) (start : String) :
    List (String × UserCommand) :=
  (entries.filter (isListed start)).mergeSort fun a b => entryKey a ≤ entryKey b

/-- Sorting rows is sorting entries by their rows. -/
theorem listingRows_eq (entries : List (String × UserCommand)) (start : String) :
    listingRows entries start =
      (listedEntries entries start).map fun e => listingRow e.1 e.2 := by
  let keyed (e : String × UserCommand) : String × String := (entryKey e, listingRow e.1 e.2)
  have sorted : (listedEntries entries start).map keyed =
      ((entries.filter (isListed start)).map keyed).mergeSort fun a b => a.1 ≤ b.1 :=
    List.map_mergeSort fun _ _ _ _ => rfl
  have rows : (((entries.filter (isListed start)).map fun e => listingRow e.1 e.2).map
      fun row => (sortKey row, row)) = (entries.filter (isListed start)).map keyed :=
    List.map_map
  have listed : listingRows entries start =
      (((listedEntries entries start).map keyed).map (·.2)) := by
    rw [sorted, ← rows]
    rfl
  rw [listed, List.map_map]
  rfl

/-! ### The order of the rows -/

theorem listedEntries_perm (entries : List (String × UserCommand)) (start : String) :
    (listedEntries entries start).Perm (entries.filter (isListed start)) :=
  List.mergeSort_perm _ _

theorem pairwise_listedEntries (entries : List (String × UserCommand)) (start : String) :
    (listedEntries entries start).Pairwise fun a b => entryKey a ≤ entryKey b := by
  have sorted : (listedEntries entries start).Pairwise fun a b =>
      decide (entryKey a ≤ entryKey b) = true := by
    refine List.pairwise_mergeSort (fun a b c hab hbc => ?_) (fun a b => ?_) _
    · simp only [decide_eq_true_eq] at hab hbc ⊢
      exact String.le_trans hab hbc
    · simpa using String.le_total (entryKey a) (entryKey b)
  exact sorted.imp of_decide_eq_true

/-! ### What is shown -/

/-- The entries that are sorted are the user commands whose names start with the text. -/
theorem mem_filter_iff {name : String} {c : UserCommand} :
    (name, c) ∈ registry.table.entries.filter (isListed start) ↔
      registry.get? name = some c ∧ start.toList <+: name.toList := by
  rw [List.mem_filter, isListed, List.isPrefixOf_iff_prefix, get?, Table.get?_eq_some_iff]

theorem mem_listedEntries_iff {name : String} {c : UserCommand} :
    (name, c) ∈ listedEntries registry.table.entries start ↔
      registry.get? name = some c ∧ start.toList <+: name.toList :=
  (listedEntries_perm _ _).mem_iff.trans mem_filter_iff

theorem nodup_filter (registry : Registry) (start : String) :
    ((registry.table.entries.filter (isListed start)).map Prod.fst).Nodup := by
  have names : (registry.table.entries.map Prod.fst).Nodup :=
    List.pairwise_map.mpr (registry.table.sorted.imp String.ne_of_lt)
  exact names.sublist (List.filter_sublist.map Prod.fst)

/-- No name is shown twice. -/
theorem nodup_listedEntries (registry : Registry) (start : String) :
    ((listedEntries registry.table.entries start).map Prod.fst).Nodup :=
  ((listedEntries_perm registry.table.entries start).map Prod.fst).nodup_iff.mpr
    (nodup_filter registry start)

/-! ### Rows that differ -/

/-- Whether no two rows of a listing are the same in small letters. -/
def RowsDiffer (registry : Registry) (start : String) : Prop :=
  ∀ name c name' c', registry.get? name = some c → registry.get? name' = some c' →
    start.toList <+: name.toList → start.toList <+: name'.toList →
      sortKey (listingRow name c) = sortKey (listingRow name' c') → name = name'

/-- It is enough to look at the rows. -/
theorem rowsDiffer_iff :
    registry.RowsDiffer start ↔
      ((registry.table.entries.filter (isListed start)).map entryKey).Nodup := by
  constructor
  · intro h
    refine List.pairwise_map.mpr ((List.pairwise_map.mp (nodup_filter registry start)).imp_of_mem ?_)
    rintro ⟨name, c⟩ ⟨name', c'⟩ ha hb hne hkey
    obtain ⟨hname, hstart⟩ := mem_filter_iff.mp ha
    obtain ⟨hname', hstart'⟩ := mem_filter_iff.mp hb
    exact hne (h name c name' c' hname hname' hstart hstart' hkey)
  · intro h name c name' c' hname hname' hstart hstart' hkey
    have same := List.inj_on_of_nodup_map h (mem_filter_iff.mpr ⟨hname, hstart⟩)
      (mem_filter_iff.mpr ⟨hname', hstart'⟩) hkey
    exact congrArg Prod.fst same

namespace RowsDiffer

/-- Rows that differ are those of different entries. -/
theorem eq_of_entryKey (h : registry.RowsDiffer start) {a b : String × UserCommand}
    (ha : a ∈ listedEntries registry.table.entries start)
    (hb : b ∈ listedEntries registry.table.entries start) (hkey : entryKey a = entryKey b) :
    a = b := by
  obtain ⟨name, c⟩ := a
  obtain ⟨name', c'⟩ := b
  obtain ⟨hname, hstart⟩ := mem_listedEntries_iff.mp ha
  obtain ⟨hname', hstart'⟩ := mem_listedEntries_iff.mp hb
  obtain rfl := h name c name' c' hname hname' hstart hstart' hkey
  rw [hname] at hname'
  cases hname'
  rfl

/-- **The order in which the entries come is forgotten.** -/
theorem listedEntries_eq (h : registry.RowsDiffer start)
    (horder : entries.Perm registry.table.entries) :
    listedEntries entries start = listedEntries registry.table.entries start := by
  have same : (listedEntries entries start).Perm (listedEntries registry.table.entries start) :=
    (listedEntries_perm entries start).trans
      ((horder.filter _).trans (listedEntries_perm registry.table.entries start).symm)
  refine List.Perm.eq_of_pairwise (fun a b ha hb hab hba => ?_)
    (pairwise_listedEntries entries start) (pairwise_listedEntries registry.table.entries start) same
  exact h.eq_of_entryKey (same.mem_iff.mp ha) hb (String.le_antisymm hab hba)

/-- Rows that differ increase strictly. -/
theorem pairwise_lt (h : registry.RowsDiffer start) :
    (listedEntries registry.table.entries start).Pairwise fun a b => entryKey a < entryKey b := by
  have distinct := List.pairwise_map.mp (nodup_listedEntries registry start)
  have sorted := pairwise_listedEntries registry.table.entries start
  refine (sorted.and distinct).imp_of_mem fun {a b} ha hb hab => ?_
  obtain ⟨hle, hne⟩ := hab
  refine String.not_le.mp fun hge => hne ?_
  rw [h.eq_of_entryKey ha hb (String.le_antisymm hle hge)]

end RowsDiffer

/-- **A listing is complete, sorted, and does not depend on the order of the entries**, as long as
no two of its rows are the same in small letters. Behind the header there is one row for each user
command whose name starts with the text, and the rows increase strictly in small letters. -/
theorem listing_of_any_order (hrows : registry.RowsDiffer start)
    (horder : entries.Perm registry.table.entries) :
    listingHeader :: listingRows entries start = registry.listing start ∧
      ∃ shown : List (String × UserCommand),
        listingRows entries start = shown.map (fun e => listingRow e.1 e.2) ∧
          (shown.map Prod.fst).Nodup ∧
          (∀ name c, (name, c) ∈ shown ↔
            registry.get? name = some c ∧ start.toList <+: name.toList) ∧
          (listingRows entries start).Pairwise fun row row' => sortKey row < sortKey row' := by
  have hshown : listingRows entries start =
      (listedEntries registry.table.entries start).map fun e => listingRow e.1 e.2 := by
    rw [listingRows_eq, hrows.listedEntries_eq horder]
  refine ⟨?_, _, hshown, nodup_listedEntries registry start, fun _ _ => mem_listedEntries_iff, ?_⟩
  · rw [listing, hshown, listingRows_eq]
  · rw [hshown, List.pairwise_map]
    exact hrows.pairwise_lt

/-- A registry in which names and rows are in different orders. -/
def threeNames : Registry :=
  ((empty.define "WC" ⟨0, none⟩ "wq").define "Wb" ⟨0, some 1⟩ "echo <args>").define "Alone"
    ⟨0, some 0⟩ "echo 1"

/-- The entries of the registry in the order of their rows. -/
def threeEntries : List (String × UserCommand) :=
  [("Wb", .ofScript "Wb" ⟨0, some 1⟩ "echo <args>"), ("WC", .ofScript "WC" ⟨0, none⟩ "wq"),
    ("Alone", .ofScript "Alone" ⟨0, some 0⟩ "echo 1")]

/-- In the registry the capital letter comes first, in the listing the `b` does. -/
theorem listing_of_any_order_threeNames :
    threeNames.RowsDiffer "W" ∧ threeEntries.Perm threeNames.table.entries ∧
      threeNames.listing "W" =
        [listingHeader, "Wb          ?          echo <args>", "WC          *          wq"] := by
  have hrows : threeNames.RowsDiffer "W" := rowsDiffer_iff.mpr (by decide +kernel)
  have horder : threeEntries.Perm threeNames.table.entries := by
    have hreverse : threeEntries = threeNames.table.entries.reverse := by rfl
    rw [hreverse]
    exact List.reverse_perm _
  have hsorted : listingRows threeEntries "W" =
      ["Wb          ?          echo <args>", "WC          *          wq"] := by
    have inOrder : (threeEntries.filter (isListed "W")).Pairwise fun a b =>
        decide (entryKey a ≤ entryKey b) = true := by
      decide +kernel
    rw [listingRows_eq, listedEntries, List.mergeSort_of_pairwise inOrder]
    decide +kernel
  refine ⟨hrows, horder, ?_⟩
  rw [← (listing_of_any_order hrows horder).1, hsorted]

end ExScript.Registry
