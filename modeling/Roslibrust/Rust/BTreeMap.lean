import Mathlib.Data.String.Basic
import Mathlib.Data.List.Pairwise

/-!
# `BTreeMap<String, V>`

The crate keeps its type graph, its reference map and the mock's topic table in `BTreeMap`s keyed
by `String`. What the code observes of one is `get`, an `insert` that replaces the value under an
existing key, and iteration in ascending key order. The model is the entry list in ascending
order, the order carried as a field so that no unsorted map can be built.

Rust orders `String`s lexicographically by their UTF-8 bytes, which is the lexicographic order of
their chars; the comparison is decided on the char lists so that `decide` evaluates it.
-/

namespace Roslibrust

variable {α : Type}

/-- `<` on `String`, as Rust's `Ord for String` decides it. -/
def keyLt (a b : String) : Bool := decide (a.data < b.data)

theorem keyLt_iff {a b : String} : keyLt a b = true ↔ a < b := by
  rw [keyLt, decide_eq_true_iff, String.lt_iff_toList_lt]
  rfl

/-- Insertion into a strictly ascending entry list, replacing an entry with the same key. -/
def insertEntry (k : String) (v : α) : List (String × α) → List (String × α)
  | [] => [(k, v)]
  | (k', v') :: rest =>
    if keyLt k k' then (k, v) :: (k', v') :: rest
    else if k = k' then (k, v) :: rest
    else (k', v') :: insertEntry k v rest

theorem mem_insertEntry {k : String} {v : α} {l : List (String × α)} {e : String × α}
    (h : e ∈ insertEntry k v l) : e = (k, v) ∨ e ∈ l := by
  induction l with
  | nil => simpa [insertEntry] using h
  | cons hd tl ih =>
    simp only [insertEntry] at h
    split_ifs at h
    · exact List.mem_cons.mp h
    · rcases List.mem_cons.mp h with h | h
      · exact .inl h
      · exact .inr (List.mem_cons_of_mem _ h)
    · rcases List.mem_cons.mp h with rfl | h
      · exact .inr (List.mem_cons_self _ _)
      · rcases ih h with h | h
        · exact .inl h
        · exact .inr (List.mem_cons_of_mem _ h)

theorem insertEntry_sorted (k : String) (v : α) {l : List (String × α)}
    (h : l.Pairwise fun a b => a.1 < b.1) :
    (insertEntry k v l).Pairwise fun a b => a.1 < b.1 := by
  induction l with
  | nil => simp [insertEntry]
  | cons hd tl ih =>
    obtain ⟨k', v'⟩ := hd
    have hhd : ∀ a ∈ tl, k' < a.1 := (List.pairwise_cons.mp h).1
    simp only [insertEntry]
    split_ifs with h1 h2
    · have h1 := keyLt_iff.mp h1
      refine h.cons fun a ha => ?_
      rcases List.mem_cons.mp ha with rfl | ha
      · exact h1
      · exact h1.trans (hhd _ ha)
    · subst h2
      exact h.of_cons.cons fun a ha => hhd _ ha
    · have hlt : k' < k := lt_of_le_of_ne (not_lt.mp (mt keyLt_iff.mpr h1)) (Ne.symm h2)
      refine (ih h.of_cons).cons fun a ha => ?_
      rcases mem_insertEntry ha with rfl | ha
      · exact hlt
      · exact hhd _ ha

/-- Rust's `BTreeMap<String, α>`: its entries in strictly ascending key order. -/
structure BTreeMap (α : Type) where
  /-- The entries, in iteration order. -/
  entries : List (String × α)
  /-- Iteration order is strictly ascending by key. -/
  sorted : entries.Pairwise fun a b => a.1 < b.1

namespace BTreeMap

/-- `BTreeMap::new`. -/
def empty : BTreeMap α := ⟨[], .nil⟩

/-- `BTreeMap::get`. -/
def get (m : BTreeMap α) (k : String) : Option α := m.entries.lookup k

/-- `BTreeMap::insert`. -/
def insert (m : BTreeMap α) (k : String) (v : α) : BTreeMap α :=
  ⟨insertEntry k v m.entries, insertEntry_sorted k v m.sorted⟩

/-- `into_iter().map(|(_, v)| v)`: the values in ascending key order. -/
def values (m : BTreeMap α) : List α := m.entries.map Prod.snd

/-- A map built by inserting the pairs of a list in order (`collect`). -/
def ofList (l : List (String × α)) : BTreeMap α := l.foldl (fun m e => m.insert e.1 e.2) empty

theorem ext {m m' : BTreeMap α} (h : m.entries = m'.entries) : m = m' := by
  cases m; cases m'; cases h; rfl

instance [DecidableEq α] : DecidableEq (BTreeMap α) := fun m m' =>
  decidable_of_iff (m.entries = m'.entries) ⟨ext, fun h => h ▸ rfl⟩

theorem lookup_cons_ite (a k : String) (b : α) (es : List (String × α)) :
    ((k, b) :: es).lookup a = if a = k then some b else es.lookup a := by
  by_cases h : a = k
  · simp [h]
  · simp [List.lookup_cons, beq_eq_false_iff_ne.mpr h, h]

@[simp] theorem get_empty (k : String) : (empty : BTreeMap α).get k = none := rfl

theorem lookup_insertEntry (k k' : String) (v : α) (l : List (String × α)) :
    (insertEntry k v l).lookup k' = if k' = k then some v else l.lookup k' := by
  induction l with
  | nil => simp [insertEntry, lookup_cons_ite]
  | cons hd tl ih =>
    obtain ⟨k'', v''⟩ := hd
    simp only [insertEntry]
    split_ifs with h1 h2 <;> by_cases h : k' = k <;> simp_all [lookup_cons_ite]

@[simp] theorem get_insert (m : BTreeMap α) (k k' : String) (v : α) :
    (m.insert k v).get k' = if k' = k then some v else m.get k' :=
  lookup_insertEntry k k' v m.entries

theorem get_insert_self (m : BTreeMap α) (k : String) (v : α) : (m.insert k v).get k = some v := by
  simp

theorem get_insert_ne (m : BTreeMap α) {k k' : String} (v : α) (h : k' ≠ k) :
    (m.insert k v).get k' = m.get k' := by
  simp [h]

/-- An entry of the map is what `get` finds under its key: keys are unique. -/
theorem mem_entries_iff (m : BTreeMap α) (k : String) (v : α) :
    (k, v) ∈ m.entries ↔ m.get k = some v := by
  obtain ⟨l, hs⟩ := m
  simp only [get]
  induction l with
  | nil => simp
  | cons hd tl ih =>
    obtain ⟨k', v'⟩ := hd
    have hhd : ∀ a ∈ tl, k' < a.1 := (List.pairwise_cons.mp hs).1
    by_cases hk : k = k'
    · subst hk
      have : (k, v) ∉ tl := fun hm => lt_irrefl k (hhd _ hm)
      simp [lookup_cons_ite, this, eq_comm]
    · simp [lookup_cons_ite, hk, ih hs.of_cons]

theorem mem_values_iff (m : BTreeMap α) (v : α) : v ∈ m.values ↔ ∃ k, m.get k = some v := by
  simp [values, ← mem_entries_iff]

end BTreeMap

end Roslibrust
