import Mathlib.Data.List.Induction
import SuiteDocs.OrderedMap

/-!
Maps in the order of their keys.

Adding a pair exchanges the value of its key in place, so a map made of a list of pairs has the keys in
the order of their first pairs and the values of their last.
-/

set_option autoImplicit false

namespace SuiteDocs

namespace OrderedMap

variable {κ α : Type} [DecidableEq κ]

theorem mem_insertEntry {key : κ} {value : α} {entries : List (κ × α)} {entry : κ × α}
    (member : entry ∈ insertEntry key value entries) : entry = (key, value) ∨ entry ∈ entries := by
  induction entries with
  | nil => exact .inl (List.mem_singleton.mp member)
  | cons first rest ih =>
    obtain ⟨other, old⟩ := first
    rw [insertEntry] at member
    split at member
    · rcases List.mem_cons.mp member with same | later
      · exact .inl same
      · exact .inr (List.mem_cons_of_mem _ later)
    · rcases List.mem_cons.mp member with same | later
      · exact .inr (same ▸ List.mem_cons_self)
      · exact (ih later).imp_right (List.mem_cons_of_mem _)

theorem keys_insertEntry (key : κ) (value : α) (entries : List (κ × α)) :
    (insertEntry key value entries).map (·.1) =
      if key ∈ entries.map (·.1) then entries.map (·.1) else entries.map (·.1) ++ [key] := by
  induction entries with
  | nil => rfl
  | cons first rest ih =>
    obtain ⟨other, old⟩ := first
    rw [insertEntry]
    split
    · rename_i same
      simp [same]
    · rename_i different
      rw [List.map_cons, ih, List.map_cons]
      by_cases listed : key ∈ rest.map (·.1)
      · rw [if_pos listed, if_pos (List.mem_cons_of_mem _ listed)]
      · rw [if_neg listed, if_neg]
        · rfl
        · simp only [List.mem_cons, not_or]
          exact ⟨Ne.symm different, listed⟩

theorem keys_insert (map : OrderedMap κ α) (key : κ) (value : α) :
    (map.insert key value).keys = if key ∈ map.keys then map.keys else map.keys ++ [key] :=
  keys_insertEntry key value map.entries

/-- Adding a pair keeps the keys different. -/
theorem nodup_keys_insert {map : OrderedMap κ α} (distinct : map.keys.Nodup) (key : κ) (value : α) :
    (map.insert key value).keys.Nodup := by
  rw [keys_insert]
  split
  · exact distinct
  · rename_i absent
    exact List.nodup_append.mpr ⟨distinct, by simp, fun a member b single same =>
      absent (List.mem_singleton.mp single ▸ same ▸ member)⟩

theorem get?_insert (map : OrderedMap κ α) (key other : κ) (value : α) :
    (map.insert key value).get? other = if other = key then some value else map.get? other := by
  obtain ⟨entries⟩ := map
  simp only [get?, insert]
  induction entries with
  | nil =>
    by_cases same : other = key
    · simp [insertEntry, same]
    · simp [insertEntry, same, Ne.symm same]
  | cons first rest ih =>
    obtain ⟨name, old⟩ := first
    rw [insertEntry]
    by_cases here : name = key
    · rw [if_pos here]
      by_cases same : other = key
      · simp [same]
      · simp [same, here, Ne.symm same]
    · rw [if_neg here, List.find?_cons, List.find?_cons]
      by_cases found : name = other
      · have different : other ≠ key := found ▸ here
        simp [found, different]
      · simp only [found, decide_false]
        exact ih

theorem ofList_concat (pairs : List (κ × α)) (pair : κ × α) :
    ofList (pairs ++ [pair]) = (ofList pairs).insert pair.1 pair.2 := by
  rw [ofList, List.foldl_append]
  rfl

/-- The keys of a list are kept in the order of their first pairs. -/
theorem keys_ofList [BEq κ] [LawfulBEq κ] (pairs : List (κ × α)) :
    (ofList pairs).keys = (pairs.map (·.1)).eraseDups := by
  induction pairs using List.reverseRecOn with
  | nil => rfl
  | append_singleton pairs pair ih =>
    have listed : pair.1 ∈ (ofList pairs).keys ↔ pair.1 ∈ pairs.map (·.1) := by
      rw [ih, List.mem_eraseDups]
    rw [ofList_concat, keys_insert, List.map_append, List.eraseDups_append, ← ih]
    by_cases known : pair.1 ∈ pairs.map (·.1)
    · rw [if_pos (listed.mpr known)]
      simp [List.removeAll, known]
    · rw [if_neg (mt listed.mp known)]
      simp [List.removeAll, known, List.eraseDups_cons]

theorem insertEntry_of_not_mem {key : κ} {entries : List (κ × α)} (new : key ∉ entries.map (·.1))
    (value : α) : insertEntry key value entries = entries ++ [(key, value)] := by
  induction entries with
  | nil => rfl
  | cons entry rest ih =>
    rw [List.map_cons, List.mem_cons, not_or] at new
    obtain ⟨different, later⟩ := new
    rw [insertEntry, if_neg (Ne.symm different), ih later, List.cons_append]

/-- Pairs with distinct keys are kept as they are. -/
theorem ofList_of_nodup {pairs : List (κ × α)} (distinct : (pairs.map (·.1)).Nodup) :
    ofList pairs = ⟨pairs⟩ := by
  induction pairs using List.reverseRecOn with
  | nil => rfl
  | append_singleton pairs pair ih =>
    rw [List.map_append, List.map_singleton, List.nodup_append] at distinct
    obtain ⟨earlier, -, apart⟩ := distinct
    have new : pair.1 ∉ pairs.map (·.1) := fun member =>
      apart pair.1 member pair.1 List.mem_cons_self rfl
    rw [ofList_concat, ih earlier, insert, insertEntry_of_not_mem new]

/-- The last pair with a key gives its value. -/
theorem get?_ofList_eq (pairs : List (κ × α)) (key : κ) :
    (ofList pairs).get? key = (pairs.reverse.find? (·.1 = key)).map (·.2) := by
  induction pairs using List.reverseRecOn with
  | nil => rfl
  | append_singleton pairs pair ih =>
    rw [ofList_concat, get?_insert, List.reverse_append, List.reverse_singleton, List.singleton_append,
      List.find?_cons]
    by_cases here : pair.1 = key
    · simp [here]
    · simp [here, Ne.symm here, ih]

theorem mem_of_get?_ofList {pairs : List (κ × α)} {key : κ} {value : α}
    (found : (ofList pairs).get? key = some value) : (key, value) ∈ pairs := by
  rw [get?_ofList_eq] at found
  obtain ⟨pair, last, rfl⟩ := Option.map_eq_some_iff.mp found
  have same := List.find?_some last
  obtain rfl := of_decide_eq_true same
  exact List.mem_reverse.mp (List.mem_of_find?_eq_some last)

/-- Where all pairs with a key agree, their value is looked up. -/
theorem get?_ofList {pairs : List (κ × α)} {key : κ} {value : α}
    (agree : ∀ pair ∈ pairs, pair.1 = key → pair.2 = value)
    (present : ∃ pair ∈ pairs, pair.1 = key) : (ofList pairs).get? key = some value := by
  obtain ⟨pair, member, same⟩ := present
  have given : (pairs.reverse.find? (·.1 = key)).isSome = true :=
    List.find?_isSome.mpr ⟨pair, List.mem_reverse.mpr member, decide_eq_true same⟩
  obtain ⟨last, found⟩ := Option.isSome_iff_exists.mp given
  have listed := List.mem_reverse.mp (List.mem_of_find?_eq_some found)
  have keyed : last.1 = key := by simpa using List.find?_some found
  rw [get?_ofList_eq, found, Option.map_some, agree last listed keyed]

theorem mem_of_get? {map : OrderedMap κ α} {key : κ} {value : α} (found : map.get? key = some value) :
    (key, value) ∈ map.entries := by
  obtain ⟨entry, finds, rfl⟩ := Option.map_eq_some_iff.mp found
  have same : entry.1 = key := by simpa using List.find?_some finds
  exact same ▸ List.mem_of_find?_eq_some finds

/-- A key that stands in one entry only is looked up there. -/
theorem get?_of_mem {map : OrderedMap κ α} (distinct : map.keys.Nodup) {entry : κ × α}
    (member : entry ∈ map.entries) : map.get? entry.1 = some entry.2 := by
  obtain ⟨entries⟩ := map
  simp only [get?, keys] at *
  induction entries with
  | nil => cases member
  | cons first rest ih =>
    rw [List.map_cons, List.nodup_cons] at distinct
    rcases List.mem_cons.mp member with rfl | later
    · simp
    · have different : first.1 ≠ entry.1 := by
        intro same
        exact distinct.1 (same ▸ List.mem_map_of_mem later)
      rw [List.find?_cons]
      simp only [different, decide_false]
      exact ih distinct.2 later

end OrderedMap

end SuiteDocs
