import CMsgQueue.Lib.SlotTable
import CMsgQueue.Store.Kv
import CMsgQueue.Store.KeyCompactSpec

/-!
# What the table of the last-value store holds

As long as its keys are shorter than the array for them, the table holds a map: a write updates
the map, and a lookup reads it.  A replay applies the records of the log in their order.
-/

namespace CMsgQueue.Store

open Function List SlotTable

lemma length_memcpy (inside : offset + data.length ≤ bytes.length) :
    (memcpy bytes offset data).length = bytes.length := by
  simp only [memcpy, length_append, length_take, length_drop]
  omega

def KvSlot.entry (slot : KvSlot) : Option (Bytes × Bytes) :=
  if slot.used then some (slot.name, slot.value) else none

structure KvSlot.Sized (slot : KvSlot) : Prop where
  length_bytes : slot.bytes.length = cmqKvKeyMax + cmqKvValMax
  valLen_le : slot.valLen ≤ cmqKvValMax

lemma KvSlot.sized_zero : KvSlot.zero.Sized := ⟨length_replicate, Nat.zero_le _⟩

lemma KvSlot.Sized.length_value {slot : KvSlot} (sized : slot.Sized) :
    slot.value.length = slot.valLen := by
  have bound := sized.valLen_le
  rw [KvSlot.value, length_take, length_drop, sized.length_bytes]
  omega

lemma kvKeySafe_iff :
    kvKeySafe key = true ↔ key ≠ [] ∧ key.length ≤ cmqKvKeyMax ∧ key.all kvKeyChar = true := by
  simp [kvKeySafe, and_assoc]

lemma ne_zero_of_kvKeySafe (safe : kvKeySafe key = true) : ∀ c ∈ key, (c != 0) = true := by
  intro c member
  have char := all_eq_true.mp (kvKeySafe_iff.mp safe).2.2 c member
  rw [bne_iff_ne]
  intro same
  rw [same] at char
  cases char

variable {slot : KvSlot} {key val : Bytes}

lemma KvSlot.Sized.fill (sized : slot.Sized) (key : Bytes) (small : val.length ≤ cmqKvValMax) :
    (slot.fill key val).Sized := by
  have short : (key.take cmqKvKeyMax).length ≤ cmqKvKeyMax := length_take_le ..
  have positive : 1 ≤ cmqKvValMax := by decide
  have total := sized.length_bytes
  have first : (memcpy slot.bytes 0 (key.take cmqKvKeyMax)).length = slot.bytes.length :=
    length_memcpy (by omega)
  have second : (memcpy (memcpy slot.bytes 0 (key.take cmqKvKeyMax))
      (key.take cmqKvKeyMax).length [0]).length =
        (memcpy slot.bytes 0 (key.take cmqKvKeyMax)).length :=
    length_memcpy (by rw [length_singleton]; omega)
  refine ⟨?_, small⟩
  rw [KvSlot.fill, length_memcpy, second, first, total]
  omega

lemma KvSlot.Sized.entry_fill (sized : slot.Sized) (safe : kvKeySafe key = true)
    (short : key.length < cmqKvKeyMax) : (slot.fill key val).entry = some (key, val) := by
  have taken : key.take cmqKvKeyMax = key := take_of_length_le (le_of_lt short)
  have total := sized.length_bytes
  obtain ⟨rest, bytes_eq⟩ : ∃ rest, memcpy (memcpy slot.bytes 0 key) key.length [0] =
      key ++ 0 :: rest := by
    refine ⟨(memcpy slot.bytes 0 key).drop (key.length + 1), ?_⟩
    have start : memcpy slot.bytes 0 key = key ++ slot.bytes.drop (0 + key.length) := rfl
    rw [memcpy, start, take_left]
    rfl
  have length : cmqKvKeyMax ≤ (key ++ 0 :: rest).length := by
    have first : (memcpy slot.bytes 0 key).length = slot.bytes.length := length_memcpy (by omega)
    rw [← bytes_eq, length_memcpy (by rw [length_singleton]; omega), first, total]
    exact Nat.le_add_right ..
  have front : (key ++ 0 :: rest).take cmqKvKeyMax =
      key ++ 0 :: rest.take (cmqKvKeyMax - key.length - 1) := by
    rw [take_append, take_of_length_le (le_of_lt short), take_cons (by omega)]
  have whole : (slot.fill key val).bytes = (key ++ 0 :: rest).take cmqKvKeyMax ++
      (val ++ (key ++ 0 :: rest).drop (cmqKvKeyMax + val.length)) := by
    rw [KvSlot.fill, taken, bytes_eq, memcpy]
  have name : (slot.fill key val).name = key := by
    rw [KvSlot.name, whole, front, append_assoc,
      takeWhile_append_of_pos (ne_zero_of_kvKeySafe safe), cons_append,
      takeWhile_cons_of_neg (by decide), append_nil]
  have value : (slot.fill key val).value = val := by
    have start : ((key ++ 0 :: rest).take cmqKvKeyMax).length = cmqKvKeyMax := by
      rw [length_take, min_eq_left length]
    rw [KvSlot.value, whole, drop_append_of_le_length (le_of_eq start.symm),
      drop_of_length_le (le_of_eq start)]
    exact take_left
  rw [KvSlot.entry, name, value]
  rfl

/-- A write to the map.  The empty value is a tombstone. -/
def kvWrite (map : Bytes → Option Bytes) (key val : Bytes) : Bytes → Option Bytes :=
  update map key (if val.length = 0 then none else some val)

/-- The table holds a map with short keys. -/
structure KvTable.Keeps (table : KvTable) (map : Bytes → Option Bytes) : Prop where
  sized : ∀ slot ∈ table.slots, slot.Sized
  tabulates : Tabulates (table.slots.map KvSlot.entry) map
  count_eq : table.count = (table.slots.map KvSlot.entry).countP Option.isSome
  short : ∀ key, map key ≠ none → kvKeySafe key = true ∧ key.length < cmqKvKeyMax

variable {table : KvTable} {map : Bytes → Option Bytes}

lemma kvFind_eq (table : KvTable) (key : Bytes) :
    kvFind table key = (table.slots.map KvSlot.entry).findIdx? (hasKey key) := by
  rw [kvFind, List.findIdx?_map]
  congr 1
  funext slot
  rw [Bool.eq_iff_iff]
  cases used : slot.used with
  | false | true => simp [KvSlot.entry, hasKey, used]

lemma KvTable.keeps_fresh (cap : Nat) : (KvTable.fresh cap).Keeps fun _ => none := by
  have free : (KvTable.fresh cap).slots.map KvSlot.entry = List.replicate cap none :=
    map_replicate ..
  refine ⟨fun _ member => ?_, ?_, ?_, fun _ stored => absurd rfl stored⟩
  · rw [(mem_replicate.mp member).2]
    exact KvSlot.sized_zero
  · rw [free]
    exact tabulates_replicate cap
  rw [free, countP_replicate]
  rfl

namespace KvTable.Keeps

lemma find_none (keeps : table.Keeps map) : kvFind table key = none ↔ map key = none := by
  rw [kvFind_eq]
  exact keeps.tabulates.find_none

lemma find_some (keeps : table.Keeps map) (found : kvFind table key = some idx) :
    ∃ front slot back, table.slots = front ++ slot :: back ∧ front.length = idx ∧
      slot.entry = some (key, slot.value) ∧ map key = some slot.value := by
  obtain ⟨front, slot, back, slots, length, hit⟩ := exists_of_findIdx? found
  simp only [Bool.and_eq_true, beq_iff_eq] at hit
  have entry : slot.entry = some (key, slot.value) := by rw [KvSlot.entry, if_pos hit.1, hit.2]
  refine ⟨front, slot, back, slots, length, entry, ?_⟩
  rw [← keeps.tabulates.mem_iff, slots, ← entry]
  simp

lemma get_eq {kv : CmqKv} (keeps : kv.toKvTable.Keeps map) (key : Bytes) (outSz : Nat) :
    cmqKvGet kv key outSz = fetched outSz (map key) := by
  rw [cmqKvGet]
  by_cases safe : kvKeySafe key = true
  · rw [safe]
    cases found : kvFind kv.toKvTable key with
    | none => rw [keeps.find_none.mp found]; rfl
    | some idx =>
      obtain ⟨_, slot, _, slots, length, -, located⟩ := keeps.find_some found
      have sized := keeps.sized slot (by rw [slots]; simp)
      have here : kv.slots[idx]? = some slot := by
        rw [slots, ← length]
        simp
      simp only [here, located, fetched, sized.length_value]
      rfl
  have absent : map key = none := by
    by_contra stored
    exact safe (keeps.short key stored).1
  rw [Bool.not_eq_true] at safe
  rw [absent, safe]
  rfl

lemma of_slots (keeps : table.Keeps map) (slots : table.slots = front ++ slot :: back) :
    Tabulates (front.map KvSlot.entry ++ slot.entry :: back.map KvSlot.entry) map ∧ table.count =
        (front.map KvSlot.entry ++ slot.entry :: back.map KvSlot.entry).countP Option.isSome := by
  rw [← map_cons, ← map_append, ← slots]
  exact ⟨keeps.tabulates, keeps.count_eq⟩

lemma replace_slot {new : KvSlot} (keeps : table.Keeps map)
    (slots : table.slots = front ++ slot :: back) (safe : kvKeySafe key = true)
    (short : key.length < cmqKvKeyMax) (sized : new.Sized) {count : Nat}
    (tabulates : Tabulates (front.map KvSlot.entry ++ new.entry :: back.map KvSlot.entry)
      (kvWrite map key val))
    (counted : count =
      (front.map KvSlot.entry ++ new.entry :: back.map KvSlot.entry).countP Option.isSome) :
    (KvTable.mk (front ++ new :: back) count).Keeps (kvWrite map key val) := by
  rw [← map_cons, ← map_append] at tabulates counted
  refine ⟨?_, tabulates, counted, fun other stored => ?_⟩
  · have old := forall_mem_append.mp (slots ▸ keeps.sized)
    exact forall_mem_append.mpr
      ⟨old.1, forall_mem_cons.mpr ⟨sized, (forall_mem_cons.mp old.2).2⟩⟩
  by_cases same : other = key
  · exact same ▸ ⟨safe, short⟩
  rw [kvWrite, update_of_ne same] at stored
  exact keeps.short other stored

lemma apply (keeps : table.Keeps map) (safe : kvKeySafe key = true)
    (short : key.length < cmqKvKeyMax) (small : val.length ≤ cmqKvValMax)
    (room : kvFind table key ≠ none ∨ kvFreeSlot table ≠ none) :
    (kvApply table key val).Keeps (kvWrite map key val) := by
  unfold kvApply
  by_cases empty : val.length = 0
  · rw [if_pos empty]
    cases found : kvFind table key with
    | none =>
      have absent := keeps.find_none.mp found
      rw [kvWrite, if_pos empty, ← absent, update_eq_self]
      exact keeps
    | some idx =>
      obtain ⟨front, slot, back, slots, rfl, entry, -⟩ := keeps.find_some found
      obtain ⟨tabulates, count⟩ := keeps.of_slots slots
      rw [entry] at tabulates count
      simp only [slots, set_middle]
      refine keeps.replace_slot slots safe short KvSlot.sized_zero ?_ ?_
      · rw [kvWrite, if_pos empty]
        exact tabulates.clear
      have zero : KvSlot.zero.entry = none := rfl
      simp [count, zero]
  rw [if_neg empty]
  have filled : ∀ {slot}, slot ∈ table.slots → (slot.fill key val).entry = some (key, val) :=
    fun member => (keeps.sized _ member).entry_fill safe short
  cases found : kvFind table key with
  | some idx =>
    obtain ⟨front, slot, back, slots, rfl, entry, -⟩ := keeps.find_some found
    obtain ⟨tabulates, count⟩ := keeps.of_slots slots
    have member : slot ∈ table.slots := by simp [slots]
    rw [entry] at tabulates count
    simp only [slots, modify_middle]
    refine keeps.replace_slot slots safe short ((keeps.sized _ member).fill key small) ?_ ?_
    · rw [filled member, kvWrite, if_neg empty]
      exact tabulates.replace val
    simp [filled member, count]
  | none =>
    cases free : kvFreeSlot table with
    | none => exact absurd room (by simp [found, free])
    | some idx =>
      obtain ⟨front, slot, back, slots, rfl, unused⟩ := exists_of_findIdx? free
      obtain ⟨tabulates, count⟩ := keeps.of_slots slots
      have member : slot ∈ table.slots := by simp [slots]
      have entry : slot.entry = none := by
        rw [Bool.not_eq_true'] at unused
        rw [KvSlot.entry, unused]
        rfl
      rw [entry] at tabulates count
      simp only [slots, modify_middle]
      refine keeps.replace_slot slots safe short ((keeps.sized _ member).fill key small) ?_ ?_
      · rw [filled member, kvWrite, if_neg empty]
        exact tabulates.insert (keeps.find_none.mp found) val
      simp [filled member, count]
      omega

end KvTable.Keeps

end CMsgQueue.Store
