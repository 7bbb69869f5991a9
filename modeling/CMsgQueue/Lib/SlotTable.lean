import Mathlib.Data.List.ReduceOption
import Mathlib.Data.Set.Card

/-!
# Tables of slots

A map can be kept in a table with a fixed number of slots, each of them free or with one key and
its value.  The slot of a key is found by a search from the start.
-/

namespace CMsgQueue.SlotTable

open Function List

universe u v

variable {κ : Type u} {ν : Type v}

/-- The slots hold the entries of a map, and no key twice. -/
structure Tabulates (table : List (Option (κ × ν))) (map : κ → Option ν) : Prop where
  mem_iff : ∀ key value, some (key, value) ∈ table ↔ map key = some value
  distinct : (table.reduceOption.map Prod.fst).Nodup

lemma exists_of_findIdx? {α : Type u} {found : α → Bool} {list : List α} {i : Nat}
    (at_ : list.findIdx? found = some i) :
    ∃ front item back, list = front ++ item :: back ∧ front.length = i ∧ found item = true := by
  obtain ⟨inside, hit, -⟩ := findIdx?_eq_some_iff_getElem.mp at_
  refine ⟨list.take i, list[i], list.drop (i + 1), ?_, ?_, hit⟩
  · rw [cons_getElem_drop_succ, take_append_drop]
  rw [length_take, Nat.min_eq_left (Nat.le_of_lt inside)]

lemma set_middle {α : Type u} (front back : List α) (item other : α) :
    (front ++ item :: back).set front.length other = front ++ other :: back := by
  simp

lemma modify_middle {α : Type u} (front back : List α) (item : α) (change : α → α) :
    (front ++ item :: back).modify front.length change = front ++ change item :: back := by
  induction front with
  | nil => rfl
  | cons first front ih => exact congrArg (first :: ·) ih

lemma tabulates_replicate (size : Nat) :
    Tabulates (List.replicate size none) (fun _ : κ => (none : Option ν)) := by
  constructor
  · intro _ _
    simp [mem_replicate]
  rw [reduceOption_replicate_none]
  exact nodup_nil

variable {table front back : List (Option (κ × ν))} {map : κ → Option ν} {key : κ}
  {value : ν}

lemma mem_middle {entry : κ × ν} {cell : Option (κ × ν)} :
    some entry ∈ front ++ cell :: back ↔
      cell = some entry ∨ some entry ∈ front ++ none :: back := by
  simp only [mem_append, mem_cons]
  tauto

lemma nodup_set_none (distinct : (table.reduceOption.map Prod.fst).Nodup) (i : Nat) :
    ((table.set i none).reduceOption.map Prod.fst).Nodup := by
  refine distinct.sublist (List.Sublist.map _ ?_)
  induction table generalizing i with
  | nil => exact List.Sublist.refl _
  | cons cell table ih =>
    cases i with
    | zero =>
      cases cell with
      | none => exact List.Sublist.refl _
      | some entry => exact sublist_cons_self _ _
    | succ i =>
      cases cell with
      | none => exact ih distinct i
      | some entry => exact (ih (nodup_cons.mp distinct).2 i).cons_cons entry

lemma keys_modify (table : List (Option (κ × ν))) (i : Nat) (change : ν → ν) :
    (table.modify i (Option.map (Prod.map id change))).reduceOption.map Prod.fst =
      table.reduceOption.map Prod.fst := by
  induction table generalizing i with
  | nil => cases i <;> rfl
  | cons cell table ih =>
    cases i with
    | zero => cases cell <;> rfl
    | succ i =>
      have tail := ih i
      cases cell with
      | none => exact tail
      | some entry => exact congrArg (entry.1 :: ·) tail

lemma exists_of_find_free {i : Nat} (found : table.findIdx? Option.isNone = some i) :
    ∃ front back, table = front ++ none :: back ∧ front.length = i := by
  obtain ⟨front, _, back, split, length, hit⟩ := exists_of_findIdx? found
  rw [Option.isNone_iff_eq_none] at hit
  exact ⟨front, back, hit ▸ split, length⟩

variable [DecidableEq κ]

/-- A slot in use holds the entry of its key, and the others hold the rest of the map. -/
lemma tabulates_some :
    Tabulates (front ++ some (key, value) :: back) map ↔
      map key = some value ∧ Tabulates (front ++ none :: back) (update map key none) := by
  have keys : ((front ++ some (key, value) :: back).reduceOption.map Prod.fst).Perm
      (key :: (front ++ none :: back).reduceOption.map Prod.fst) := by
    simp only [reduceOption_append, map_append]
    exact perm_middle
  have mem_keys : ∀ other, other ∈ (front ++ none :: back).reduceOption.map Prod.fst ↔
      ∃ value, some (other, value) ∈ front ++ none :: back := by
    simp [reduceOption_mem_iff]
  constructor
  · intro tabulates
    have located := (tabulates.mem_iff key value).mp (mem_middle.mpr (.inl rfl))
    have distinct := keys.nodup_iff.mp tabulates.distinct
    rw [nodup_cons, mem_keys] at distinct
    refine ⟨located, fun other stored => ?_, distinct.2⟩
    by_cases same : other = key
    · subst same
      exact iff_of_false (fun member => distinct.1 ⟨stored, member⟩) (by simp)
    rw [update_of_ne same, ← tabulates.mem_iff]
    simp [same]
  intro ⟨located, tabulates⟩
  have absent : ∀ stored, some (key, stored) ∉ front ++ none :: back := by
    intro stored member
    have read := (tabulates.mem_iff key stored).mp member
    rw [update_self] at read
    cases read
  refine ⟨fun other stored => ?_, keys.nodup_iff.mpr (nodup_cons.mpr ⟨?_, ?_⟩)⟩
  · rw [mem_middle, Option.some_inj]
    by_cases same : other = key
    · subst same
      rw [located]
      simp [absent stored]
    rw [tabulates.mem_iff, update_of_ne same]
    simp [Ne.symm same]
  · rw [mem_keys]
    exact fun ⟨stored, member⟩ => absent stored member
  exact tabulates.distinct

lemma Tabulates.clear (tabulates : Tabulates (front ++ some (key, value) :: back) map) :
    Tabulates (front ++ none :: back) (update map key none) :=
  (tabulates_some.mp tabulates).2

lemma Tabulates.replace (tabulates : Tabulates (front ++ some (key, value) :: back) map)
    (other : ν) :
    Tabulates (front ++ some (key, other) :: back) (update map key (some other)) := by
  rw [tabulates_some, update_self, update_idem]
  exact ⟨rfl, tabulates.clear⟩

lemma Tabulates.insert (tabulates : Tabulates (front ++ none :: back) map)
    (absent : map key = none) (value : ν) :
    Tabulates (front ++ some (key, value) :: back) (update map key (some value)) := by
  rw [tabulates_some, update_self, update_idem, ← absent, update_eq_self]
  exact ⟨rfl, tabulates⟩

def hasKey (key : κ) (cell : Option (κ × ν)) : Bool := cell.any fun entry => entry.1 = key

lemma hasKey_iff {cell : Option (κ × ν)} :
    hasKey key cell = true ↔ ∃ value, cell = some (key, value) := by
  cases cell with
  | none => simp [hasKey]
  | some entry =>
    simp only [hasKey, Option.any_some, decide_eq_true_eq, Option.some_inj]
    exact ⟨fun same => ⟨entry.2, Prod.ext same rfl⟩, fun ⟨_, same⟩ => same ▸ rfl⟩

lemma Tabulates.find_none (tabulates : Tabulates table map) :
    table.findIdx? (hasKey key) = none ↔ map key = none := by
  rw [findIdx?_eq_none_iff]
  constructor
  · intro missed
    cases located : map key with
    | none => rfl
    | some value =>
      have missing := missed _ ((tabulates.mem_iff key value).mpr located)
      rw [hasKey_iff.mpr ⟨value, rfl⟩] at missing
      cases missing
  intro absent _ member
  by_contra found
  obtain ⟨value, rfl⟩ := hasKey_iff.mp (Bool.not_eq_false _ ▸ found)
  rw [tabulates.mem_iff, absent] at member
  cases member

def lookup (table : List (Option (κ × ν))) (key : κ) : Option ν :=
  table.findSome? fun cell => (cell.filter fun entry => entry.1 = key).map Prod.snd

lemma lookup_none_cons (table : List (Option (κ × ν))) : lookup (none :: table) = lookup table :=
  rfl

lemma lookup_some_cons (key : κ) (value : ν) (table : List (Option (κ × ν))) :
    lookup (some (key, value) :: table) = update (lookup table) key (some value) := by
  funext other
  by_cases same : key = other
  · subst same
    simp [lookup]
  rw [update_of_ne (Ne.symm same)]
  simp [lookup, same]

lemma tabulates_lookup (distinct : (table.reduceOption.map Prod.fst).Nodup) :
    Tabulates table (lookup table) := by
  induction table with
  | nil => exact tabulates_replicate 0
  | cons cell table ih =>
    match cell with
    | none =>
      rw [lookup_none_cons]
      exact ⟨fun key value => by simpa using (ih distinct).mem_iff key value, distinct⟩
    | some (key, value) =>
      rw [reduceOption_cons_of_some, map_cons, nodup_cons] at distinct
      obtain ⟨fresh, distinct⟩ := distinct
      have tabulates := ih distinct
      have free : Tabulates ([] ++ none :: table) (lookup table) :=
        ⟨fun key value => by simpa using tabulates.mem_iff key value, distinct⟩
      have absent : lookup table key = none := by
        rw [Option.eq_none_iff_forall_ne_some]
        intro stored located
        have member := (tabulates.mem_iff key stored).mpr located
        exact fresh (mem_map.mpr ⟨_, reduceOption_mem_iff.mpr member, rfl⟩)
      rw [lookup_some_cons]
      exact free.insert absent value

lemma Tabulates.lookup_eq (tabulates : Tabulates table map) : lookup table = map := by
  funext key
  ext value
  rw [← tabulates.mem_iff, (tabulates_lookup tabulates.distinct).mem_iff]

lemma exists_of_find_key {i : Nat} (found : table.findIdx? (hasKey key) = some i) :
    ∃ front value back, table = front ++ some (key, value) :: back ∧ front.length = i := by
  obtain ⟨front, _, back, split, length, hit⟩ := exists_of_findIdx? found
  obtain ⟨value, rfl⟩ := hasKey_iff.mp hit
  exact ⟨front, value, back, split, length⟩

lemma Tabulates.count_eq (tabulates : Tabulates table map) :
    table.countP Option.isSome = Set.ncard {key | map key ≠ none} := by
  have length : table.countP Option.isSome = (table.reduceOption.map Prod.fst).length := by
    rw [length_map, countP_eq_length_filter, reduceOption_length_eq]
  have domain : {key | map key ≠ none} = ↑(table.reduceOption.map Prod.fst).toFinset := by
    ext key
    simp only [Option.ne_none_iff_exists', ← tabulates.mem_iff,
      coe_toFinset, mem_map, reduceOption_mem_iff]
    exact ⟨fun ⟨value, member⟩ => ⟨(key, value), member, rfl⟩,
      fun ⟨entry, member, same⟩ => ⟨entry.2, same ▸ member⟩⟩
  rw [length, domain, Set.ncard_coe_finset, toFinset_card_of_nodup tabulates.distinct]

end CMsgQueue.SlotTable
