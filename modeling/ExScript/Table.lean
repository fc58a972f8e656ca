/-!
# Tables

A table binds strings to values. Variables, user commands, files and the counters of hooks are
all kept in tables.

The entries are a list in strictly increasing order of the keys, and the order is part of the
type. So a table is determined by what it answers (`Table.ext_get?`): two sessions that bind the
same names to the same values are equal, however they came to do so.

## Main results

* `Table.get?_insert`, `Table.get?_erase` — what each operation does to the answers
* `Table.get?_eq_some_iff` — the entries are the bindings
* `Table.ext_get?` — tables that answer alike are equal
-/

namespace ExScript

/-- A finite map from strings, as its entries in strictly increasing order of the keys. -/
structure Table (α : Type) where
  entries : List (String × α)
  sorted : entries.Pairwise fun a b => a.1 < b.1

namespace Table

variable {α : Type}

/-- The table that binds nothing. -/
def empty : Table α := ⟨[], .nil⟩

instance : EmptyCollection (Table α) := ⟨empty⟩

instance : Inhabited (Table α) := ⟨empty⟩

/-- What the first entry with a key holds. -/
def lookup (key : String) : List (String × α) → Option α
  | [] => none
  | e :: rest => if key = e.1 then some e.2 else lookup key rest

/-- What a key is bound to. -/
def get? (t : Table α) (key : String) : Option α :=
  lookup key t.entries

/-- Whether a key is bound. -/
def contains (t : Table α) (key : String) : Bool :=
  (t.get? key).isSome

/-- The number of keys that are bound. -/
def size (t : Table α) : Nat :=
  t.entries.length

/-- Whether no key is bound. -/
def isEmpty (t : Table α) : Bool :=
  t.entries.isEmpty

/-! ### Operations on sorted entries -/

/-- Sorted entries with one key bound to a value. -/
def insertEntry (key : String) (a : α) : List (String × α) → List (String × α)
  | [] => [(key, a)]
  | e :: rest =>
    if key < e.1 then (key, a) :: e :: rest
    else if e.1 < key then e :: insertEntry key a rest
    else (key, a) :: rest

theorem mem_insertEntry {key : String} {a : α} {e : String × α} {entries : List (String × α)}
    (h : e ∈ insertEntry key a entries) : e = (key, a) ∨ e ∈ entries := by
  induction entries with
  | nil => simpa [insertEntry] using h
  | cons b rest ih =>
    rw [insertEntry] at h
    split at h
    · simpa using h
    · split at h
      · rcases List.mem_cons.1 h with h | h
        · exact Or.inr (h ▸ List.mem_cons_self)
        · exact (ih h).imp_right (List.mem_cons_of_mem _)
      · rcases List.mem_cons.1 h with h | h
        · exact Or.inl h
        · exact Or.inr (List.mem_cons_of_mem _ h)

theorem eq_of_not_lt {a b : String} (hab : ¬a < b) (hba : ¬b < a) : a = b :=
  String.le_antisymm (String.not_lt.1 hba) (String.not_lt.1 hab)

theorem sorted_insertEntry (key : String) (a : α) {entries : List (String × α)}
    (h : entries.Pairwise fun a b => a.1 < b.1) :
    (insertEntry key a entries).Pairwise fun a b => a.1 < b.1 := by
  induction entries with
  | nil => simp [insertEntry]
  | cons e rest ih =>
    obtain ⟨he, hr⟩ := List.pairwise_cons.1 h
    rw [insertEntry]
    split
    · next hlt =>
      refine List.pairwise_cons.2 ⟨fun b hb => ?_, h⟩
      rcases List.mem_cons.1 hb with rfl | hb
      · exact hlt
      · exact String.lt_trans hlt (he b hb)
    · next hnlt =>
      split
      · next hgt =>
        refine List.pairwise_cons.2 ⟨fun b hb => ?_, ih hr⟩
        rcases mem_insertEntry hb with rfl | hb
        · exact hgt
        · exact he b hb
      · next hngt =>
        rw [eq_of_not_lt hnlt hngt]
        exact List.pairwise_cons.2 ⟨he, hr⟩

/-- The table with one key bound to a value; what the key was bound to is forgotten. -/
def insert (t : Table α) (key : String) (a : α) : Table α :=
  ⟨insertEntry key a t.entries, sorted_insertEntry key a t.sorted⟩

/-- The table without a key. -/
def erase (t : Table α) (key : String) : Table α :=
  ⟨t.entries.filter fun e => e.1 != key, t.sorted.filter _⟩

/-- The table of a list of bindings; of several for one key the last counts. -/
def ofList (bindings : List (String × α)) : Table α :=
  bindings.foldl (fun t b => t.insert b.1 b.2) empty

/-! ### What the operations do to the answers -/

@[simp] theorem get?_empty (key : String) : (empty : Table α).get? key = none := rfl

theorem lookup_insertEntry (key : String) (a : α) (k : String) (entries : List (String × α)) :
    lookup k (insertEntry key a entries) = if k = key then some a else lookup k entries := by
  induction entries with
  | nil => rfl
  | cons e rest ih =>
    rw [insertEntry]
    split
    · rfl
    · next hnlt =>
      split
      · next hgt =>
        have hne : ¬key = e.1 := fun h => String.lt_irrefl _ (h ▸ hgt)
        by_cases hk : k = key
        · subst hk
          simp [lookup, ih, hne]
        · simp [lookup, ih, hk]
      · next hngt =>
        have heq : key = e.1 := eq_of_not_lt hnlt hngt
        simp only [lookup, ← heq]
        by_cases hk : k = key <;> simp [hk]

theorem get?_insert (t : Table α) (key : String) (a : α) (k : String) :
    (t.insert key a).get? k = if k = key then some a else t.get? k :=
  lookup_insertEntry key a k t.entries

@[simp] theorem get?_insert_self (t : Table α) (key : String) (a : α) :
    (t.insert key a).get? key = some a := by
  simp [get?_insert]

theorem lookup_filter_ne (key k : String) (entries : List (String × α)) :
    lookup k (entries.filter fun e => e.1 != key) = if k = key then none else lookup k entries := by
  induction entries with
  | nil => simp [lookup]
  | cons e rest ih =>
    by_cases he : e.1 = key
    · by_cases hk : k = key
      · simp only [he, bne_self_eq_false, Bool.false_eq_true, not_false_eq_true,
          List.filter_cons_of_neg, ih, if_pos hk]
      · simp [he, ih, hk, lookup]
    · by_cases hk : k = key
      · subst hk
        simp [he, ih, lookup, Ne.symm he]
      · simp [he, ih, hk, lookup]

theorem get?_erase (t : Table α) (key k : String) :
    (t.erase key).get? k = if k = key then none else t.get? k :=
  lookup_filter_ne key k t.entries

/-! ### What the entries have to do with the answers -/

theorem mem_of_lookup {key : String} {a : α} {entries : List (String × α)}
    (h : lookup key entries = some a) : (key, a) ∈ entries := by
  induction entries with
  | nil => cases h
  | cons e rest ih =>
    rw [lookup] at h
    split at h
    next hkey =>
      cases h
      exact hkey ▸ List.mem_cons_self
    next => exact List.mem_cons_of_mem _ (ih h)

theorem lookup_of_mem {key : String} {a : α} {entries : List (String × α)}
    (hsorted : entries.Pairwise fun a b => a.1 < b.1) (h : (key, a) ∈ entries) :
    lookup key entries = some a := by
  induction entries with
  | nil => cases h
  | cons e rest ih =>
    obtain ⟨hfirst, hrest⟩ := List.pairwise_cons.1 hsorted
    rw [lookup]
    rcases List.mem_cons.1 h with rfl | h
    · exact if_pos rfl
    · have hlt : e.1 < key := hfirst (key, a) h
      have hne : key ≠ e.1 := fun hkey => String.lt_irrefl _ (hkey ▸ hlt)
      rw [if_neg hne, ih hrest h]

/-- A key is bound to a value exactly if there is an entry that says so. -/
theorem get?_eq_some_iff (t : Table α) (key : String) (a : α) :
    t.get? key = some a ↔ (key, a) ∈ t.entries :=
  ⟨mem_of_lookup, lookup_of_mem t.sorted⟩

/-! ### A table is its answers -/

theorem lookup_eq_none_of_lt {k : String} {entries : List (String × α)}
    (h : ∀ e ∈ entries, k < e.1) : lookup k entries = none := by
  induction entries with
  | nil => rfl
  | cons e rest ih =>
    have hne : k ≠ e.1 := fun hk => String.lt_irrefl _ (hk ▸ h e List.mem_cons_self)
    simp [lookup, hne, ih fun b hb => h b (List.mem_cons_of_mem _ hb)]

/-- The first keys of two lists that answer alike are not in order. -/
theorem not_lt_of_lookup_eq {a b : String × α} {as bs : List (String × α)}
    (hb : ∀ e ∈ bs, b.1 < e.1) (h : ∀ k, lookup k (a :: as) = lookup k (b :: bs)) :
    ¬a.1 < b.1 := by
  intro hlt
  have hnone : lookup a.1 (b :: bs) = none :=
    lookup_eq_none_of_lt fun e he => by
      rcases List.mem_cons.1 he with rfl | he
      · exact hlt
      · exact String.lt_trans hlt (hb e he)
  rw [← h a.1] at hnone
  simp [lookup] at hnone

theorem eq_of_lookup_eq {as bs : List (String × α)} (ha : as.Pairwise fun a b => a.1 < b.1)
    (hb : bs.Pairwise fun a b => a.1 < b.1) (h : ∀ k, lookup k as = lookup k bs) : as = bs := by
  induction as generalizing bs with
  | nil =>
    cases bs with
    | nil => rfl
    | cons b bs => simpa [lookup] using h b.1
  | cons a as ih =>
    cases bs with
    | nil => simpa [lookup] using h a.1
    | cons b bs =>
      obtain ⟨ha₁, ha₂⟩ := List.pairwise_cons.1 ha
      obtain ⟨hb₁, hb₂⟩ := List.pairwise_cons.1 hb
      have hab : a.1 = b.1 :=
        eq_of_not_lt (not_lt_of_lookup_eq hb₁ h) (not_lt_of_lookup_eq ha₁ fun k => (h k).symm)
      have hsnd : a.2 = b.2 := by simpa [lookup, hab] using h a.1
      rw [ih ha₂ hb₂ fun k => ?_, Prod.ext hab hsnd]
      by_cases hk : k = a.1
      · rw [hk, lookup_eq_none_of_lt ha₁, lookup_eq_none_of_lt (hab ▸ hb₁)]
      · simpa [lookup, hk, hab ▸ hk] using h k

/-- Tables that answer alike are equal. -/
theorem ext_get? {s t : Table α} (h : ∀ k, s.get? k = t.get? k) : s = t := by
  obtain ⟨as, ha⟩ := s
  obtain ⟨bs, hb⟩ := t
  obtain rfl : as = bs := eq_of_lookup_eq ha hb h
  rfl

/-- Bindings of different keys can be made in either order. -/
theorem insert_comm (t : Table α) {k l : String} (hkl : k ≠ l) (a b : α) :
    (t.insert k a).insert l b = (t.insert l b).insert k a := by
  refine ext_get? fun j => ?_
  simp only [get?_insert]
  by_cases hk : j = k <;> by_cases hl : j = l <;> simp_all

end Table

end ExScript
