import DfeClickhouse.Native.RowBinary

/-!
# The dictionary of a column

Entering keys into a dictionary gives every key the slot that holds it.  The map of
seen keys is the dictionary itself with its positions, and no key is held twice;
what one key preserves carries over to the keys of a whole column.
-/

namespace DfeClickhouse.Native

open Library

theorem lookup_zipIdx_of_mem {keys : List Bytes} {key : Bytes} (member : key ∈ keys)
    (start : Nat) : (keys.zipIdx start).lookup key = some (start + keys.idxOf key) := by
  induction keys generalizing start with
  | nil => cases member
  | cons head tail ih =>
      rw [List.zipIdx_cons, List.lookup_cons]
      by_cases same : key = head
      · subst same
        simp
      · have later : key ∈ tail := (List.mem_cons.mp member).resolve_left same
        rw [beq_eq_false_iff_ne.mpr same, List.idxOf_cons_ne tail fun other => same other.symm]
        simp only [ih later]
        congr 1
        omega

theorem lookup_zipIdx_of_not_mem {keys : List Bytes} {key : Bytes} (missing : key ∉ keys)
    (start : Nat) : (keys.zipIdx start).lookup key = none := by
  induction keys generalizing start with
  | nil => rfl
  | cons head tail ih =>
      rw [List.mem_cons, not_or] at missing
      rw [List.zipIdx_cons, List.lookup_cons, beq_eq_false_iff_ne.mpr missing.1]
      exact ih missing.2 (start + 1)

namespace Dictionary

/-- The map of seen keys mirrors the entries, which are distinct. -/
structure Consistent (dictionary : Dictionary) : Prop where
  indexed : dictionary.seen = dictionary.dict.zipIdx
  distinct : dictionary.dict.Nodup

theorem consistent_initial (isNullableInner : Bool) (dictType : ColumnType) :
    (initial isNullableInner dictType).Consistent := by
  cases isNullableInner with
  | true => exact ⟨rfl, List.nodup_singleton _⟩
  | false => exact ⟨rfl, List.nodup_nil⟩

/-- The slot a key gets: slot 0 stands for NULL, any other key is held at its slot. -/
def Holds (entries : List Bytes) (key : Option Bytes) (slot : Nat) : Prop :=
  match key with
  | none => slot = 0
  | some key => entries[slot]? = some key

/-- Entering a key finds its slot, keeps the entries there were, and adds nothing
but the key. -/
theorem intern_spec {dictionary : Dictionary} (consistent : dictionary.Consistent)
    (key : Option Bytes) (room : dictionary.dict.length < 2 ^ 32) :
    ∃ slot after, dictionary.intern key = .ok (slot, after) ∧ after.Consistent ∧
      dictionary.dict <+: after.dict ∧ Holds after.dict key slot ∧
      ∀ entry ∈ after.dict, entry ∈ dictionary.dict ∨ key = some entry := by
  cases key with
  | none => exact ⟨0, dictionary, rfl, consistent, List.prefix_refl _, rfl, fun _ => .inl⟩
  | some key =>
      simp only [intern, if_pos room, consistent.indexed]
      by_cases member : key ∈ dictionary.dict
      · rw [lookup_zipIdx_of_mem member]
        refine ⟨_, dictionary, rfl, consistent, List.prefix_refl _, ?_, fun _ => .inl⟩
        rw [Holds, Nat.zero_add]
        exact List.getElem?_idxOf member
      · rw [lookup_zipIdx_of_not_mem member]
        refine ⟨_, _, rfl, ⟨?_, ?_⟩, List.prefix_append _ _, ?_, ?_⟩
        · rw [List.zipIdx_append]
          simp
        · exact List.nodup_append.mpr ⟨consistent.distinct, List.nodup_singleton _, by
            intro entry held other single
            rw [List.mem_singleton.mp single]
            rintro rfl
            exact member held⟩
        · simp [Holds]
        · intro entry held
          rcases List.mem_append.mp held with old | new
          · exact .inl old
          · exact .inr (by rw [List.mem_singleton.mp new])

theorem Holds.of_prefix {entries after : List Bytes} {key : Option Bytes} {slot : Nat}
    (kept : entries <+: after) (holds : Holds entries key slot) : Holds after key slot := by
  cases key with
  | none => exact holds
  | some key =>
      obtain ⟨added, rfl⟩ := kept
      have inside : slot < entries.length := (List.getElem?_eq_some_iff.mp holds).1
      rw [Holds, List.getElem?_append_left inside]
      exact holds

/-- Entering the keys of a column succeeds when the distinct entries fit, and every
key then finds its slot in the final dictionary. -/
theorem internAll_spec {dictionary : Dictionary} (consistent : dictionary.Consistent)
    {keys : List (Option Bytes)}
    (room : (dictionary.dict ++ keys.reduceOption).dedup.length < 2 ^ 32) :
    ∃ slots after, dictionary.internAll keys = .ok (slots, after) ∧ after.Consistent ∧
      dictionary.dict <+: after.dict ∧ List.Forall₂ (Holds after.dict) keys slots ∧
      ∀ entry ∈ after.dict, entry ∈ dictionary.dict ++ keys.reduceOption := by
  induction keys generalizing dictionary with
  | nil =>
      refine ⟨[], dictionary, rfl, consistent, List.prefix_refl _, .nil, ?_⟩
      intro entry held
      simpa using held
  | cons key keys ih =>
      have subset : dictionary.dict ⊆ dictionary.dict ++ (key :: keys).reduceOption :=
        List.subset_append_left _ _
      have fewer {entries : List Bytes} (distinct : entries.Nodup)
          (inside : entries ⊆ dictionary.dict ++ (key :: keys).reduceOption) :
          entries.length ≤ (dictionary.dict ++ (key :: keys).reduceOption).dedup.length :=
        (List.subperm_of_subset distinct fun _ held =>
          List.mem_dedup.mpr (inside held)).length_le
      obtain ⟨slot, next, interned, nextConsistent, kept, holds, added⟩ :=
        intern_spec consistent key (Nat.lt_of_le_of_lt (fewer consistent.distinct subset) room)
      have nextInside : next.dict ++ keys.reduceOption ⊆
          dictionary.dict ++ (key :: keys).reduceOption := by
        intro entry held
        rcases List.mem_append.mp held with entered | later
        · rcases added entry entered with old | rfl
          · exact subset old
          · simp [List.reduceOption_cons_of_some]
        · apply List.mem_append_right
          cases key with
          | none => simpa using later
          | some key => simp [List.reduceOption_cons_of_some, later]
      have nextRoom : (next.dict ++ keys.reduceOption).dedup.length < 2 ^ 32 := by
        refine Nat.lt_of_le_of_lt (fewer (List.nodup_dedup _) fun entry held => ?_) room
        exact nextInside (List.mem_dedup.mp held)
      obtain ⟨slots, after, rest, afterConsistent, nextKept, restHold, restAdded⟩ :=
        ih nextConsistent nextRoom
      refine ⟨slot :: slots, after, ?_, afterConsistent, kept.trans nextKept,
        .cons (holds.of_prefix nextKept) restHold, fun entry held =>
          nextInside (restAdded entry held)⟩
      simp [internAll, interned, rest, bind, Except.bind, pure, Except.pure]

end Dictionary

end DfeClickhouse.Native
