/-!
# Ordered tables

A table is a finite map whose entries are listed in strictly ascending order of their
keys. The order is part of the type, so the entries of a table are its view: two tables
with the same entries are equal, and whatever is written out key by key comes out in
key order without a further sort.

The keys of this library are 64-bit identifiers and names. Names are ordered by code
points, which is the order of their UTF-8 bytes.

## Contents

  * `Key`: a linear order with decidable comparisons.
  * `Table.get?`, `Table.update`, `Table.insert`: look-up and the one way to change a table.
  * `Table.ofList`: later entries replace earlier ones under the same key.
  * `Table.groupBy`: the values of a list under their keys, each group in list order.
-/

namespace ProbeGap

/-! ## §1. Keys -/

/-- A linear order in which comparisons can be decided. -/
class Key (κ : Type) extends LT κ where
  decidableLt : DecidableLT κ
  irrefl : ∀ a : κ, ¬ a < a
  trans : ∀ {a b c : κ}, a < b → b < c → a < c
  connected : ∀ {a b : κ}, ¬ a < b → ¬ b < a → a = b

namespace Key

instance {κ : Type} [k : Key κ] : DecidableLT κ := k.decidableLt

instance : Key UInt64 where
  decidableLt := inferInstance
  irrefl := UInt64.lt_irrefl
  trans := UInt64.lt_trans
  connected h h' := UInt64.le_antisymm (UInt64.not_lt.mp h') (UInt64.not_lt.mp h)

instance : Key String where
  decidableLt := inferInstance
  irrefl := String.lt_irrefl
  trans := String.lt_trans
  connected h h' := String.le_antisymm (String.not_lt.mp h') (String.not_lt.mp h)

end Key

/-! ## §2. Entries in key order -/

variable {κ α β : Type} [Key κ]

/-- Change the value under `key` by `f`, which receives the present value, if any. -/
def alterEntries (key : κ) (f : Option α → α) : List (κ × α) → List (κ × α)
  | [] => [(key, f none)]
  | (k, v) :: rest =>
    if key < k then (key, f none) :: (k, v) :: rest
    else if k < key then (k, v) :: alterEntries key f rest
    else (k, f (some v)) :: rest

/-- The value under `key` in entries that ascend. -/
def lookupEntries (key : κ) : List (κ × α) → Option α
  | [] => none
  | (k, v) :: rest =>
    if key < k then none
    else if k < key then lookupEntries key rest
    else some v

/-- Every key of the altered entries is `key` or was there before. -/
theorem key_of_mem_alterEntries {key : κ} {f : Option α → α} {entries : List (κ × α)}
    {e : κ × α} (h : e ∈ alterEntries key f entries) :
    e.1 = key ∨ ∃ e' ∈ entries, e'.1 = e.1 := by
  induction entries with
  | nil => simp_all [alterEntries]
  | cons head rest ih =>
    obtain ⟨k, v⟩ := head
    simp only [alterEntries] at h
    split at h
    · rcases List.mem_cons.mp h with rfl | h
      · exact .inl rfl
      · exact .inr ⟨e, h, rfl⟩
    · split at h
      · rcases List.mem_cons.mp h with rfl | h
        · exact .inr ⟨_, List.mem_cons_self, rfl⟩
        · rcases ih h with h | ⟨e', he', hk⟩
          · exact .inl h
          · exact .inr ⟨e', List.mem_cons_of_mem _ he', hk⟩
      · rcases List.mem_cons.mp h with rfl | h
        · exact .inr ⟨(k, v), List.mem_cons_self, rfl⟩
        · exact .inr ⟨e, List.mem_cons_of_mem _ h, rfl⟩

/-- Altering keeps the entries in ascending order. -/
theorem ascending_alterEntries (key : κ) (f : Option α → α) {entries : List (κ × α)}
    (h : entries.Pairwise (·.1 < ·.1)) :
    (alterEntries key f entries).Pairwise (·.1 < ·.1) := by
  induction entries with
  | nil => simp [alterEntries]
  | cons head rest ih =>
    obtain ⟨k, v⟩ := head
    have hrest := List.pairwise_cons.mp h
    simp only [alterEntries]
    split
    case isTrue hlt =>
      refine List.pairwise_cons.mpr ⟨fun e he => ?_, h⟩
      rcases List.mem_cons.mp he with rfl | he
      · exact hlt
      · exact Key.trans hlt (hrest.1 e he)
    case isFalse hge =>
      split
      case isTrue hlt =>
        refine List.pairwise_cons.mpr ⟨fun e he => ?_, ih hrest.2⟩
        rcases key_of_mem_alterEntries he with hk | ⟨e', he', hk⟩
        · exact hk ▸ hlt
        · exact hk ▸ hrest.1 e' he'
      case isFalse => exact List.pairwise_cons.mpr hrest

/-! ## §3. Tables -/

/-- Entries in strictly ascending order of their keys. -/
structure Table (κ α : Type) [Key κ] where
  entries : List (κ × α)
  ascending : entries.Pairwise (fun a b => a.1 < b.1)

namespace Table

/-- A table is determined by its entries. -/
@[ext] theorem ext {s t : Table κ α} (h : s.entries = t.entries) : s = t := by
  cases s; cases t; cases h; rfl

/-- The table without entries. -/
def empty : Table κ α := ⟨[], .nil⟩

instance : Inhabited (Table κ α) := ⟨empty⟩

/-- The value under a key. -/
def get? (t : Table κ α) (key : κ) : Option α :=
  lookupEntries key t.entries

/-- Whether a key has a value. -/
def contains (t : Table κ α) (key : κ) : Bool :=
  (t.get? key).isSome

/-- Change the value under a key; the function receives the present value, if any. -/
def update (t : Table κ α) (key : κ) (f : Option α → α) : Table κ α :=
  ⟨alterEntries key f t.entries, ascending_alterEntries key f t.ascending⟩

/-- Put a value under a key, in the place of the present one. -/
def insert (t : Table κ α) (key : κ) (value : α) : Table κ α :=
  t.update key fun _ => value

/-- The keys in ascending order. -/
def keys (t : Table κ α) : List κ :=
  t.entries.map (·.1)

/-- The values in ascending order of their keys. -/
def values (t : Table κ α) : List α :=
  t.entries.map (·.2)

/-- Whether the table has no entry. -/
def isEmpty (t : Table κ α) : Bool :=
  t.entries.isEmpty

/-- Apply a function to every value. -/
def map (f : α → β) (t : Table κ α) : Table κ β :=
  ⟨t.entries.map fun e => (e.1, f e.2), List.pairwise_map.mpr t.ascending⟩

/-- The table of a list of entries, of which the last under each key is kept. -/
def ofList (entries : List (κ × α)) : Table κ α :=
  entries.foldl (fun t e => t.insert e.1 e.2) empty

/-- The members of a list under their keys. A group lists its members in list order. -/
def groupBy (key : α → κ) (xs : List α) : Table κ (List α) :=
  xs.foldr (fun x t => t.update (key x) fun group => x :: group.getD []) empty

@[simp] theorem entries_empty : (empty : Table κ α).entries = [] := rfl

@[simp] theorem groupBy_nil (key : α → κ) : groupBy key ([] : List α) = empty := rfl

@[simp] theorem groupBy_cons (key : α → κ) (x : α) (xs : List α) :
    groupBy key (x :: xs) =
      (groupBy key xs).update (key x) fun group => x :: group.getD [] := rfl

end Table
end ProbeGap
