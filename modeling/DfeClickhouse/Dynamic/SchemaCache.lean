import DfeClickhouse.Dynamic.Encode

/-!
# The schema cache

Schemas are cached under one text that joins the names of the database and of the
table, for as long as they are fresh.
-/

namespace DfeClickhouse.Dynamic

/-- The columns of a table in their order of declaration. -/
structure DynamicSchema where
  table : String
  columns : List ColumnDef

/-- A cached schema and the time it was fetched. -/
structure CacheEntry where
  schema : DynamicSchema
  fetchedAt : Nat

/-- Cached schemas by table, and how long they stay fresh. -/
structure DynamicSchemaCache where
  inner : List (String × CacheEntry) := []
  ttl : Nat

namespace DynamicSchemaCache

/-- The cached schema, if it is there and still fresh. -/
def get (cache : DynamicSchemaCache) (table : String) (now : Nat) : Option DynamicSchema := do
  let entry ← cache.inner.lookup table
  if now - entry.fetchedAt < cache.ttl then some entry.schema else none

/-- Insert or refresh the schema of a table. -/
def insert (cache : DynamicSchemaCache) (table : String) (schema : DynamicSchema) (now : Nat) :
    DynamicSchemaCache :=
  { cache with
    inner := (table, ⟨schema, now⟩) :: cache.inner.filter fun entry => entry.1 != table }

/-- Drop a table. -/
def invalidate (cache : DynamicSchemaCache) (table : String) : DynamicSchemaCache :=
  { cache with inner := cache.inner.filter fun entry => entry.1 != table }

/-- Drop all tables. -/
def invalidateAll (cache : DynamicSchemaCache) : DynamicSchemaCache :=
  { cache with inner := [] }

@[simp] theorem insert_ttl (cache : DynamicSchemaCache) (table : String) (schema : DynamicSchema)
    (now : Nat) : (cache.insert table schema now).ttl = cache.ttl := rfl

@[simp] theorem invalidate_ttl (cache : DynamicSchemaCache) (table : String) :
    (cache.invalidate table).ttl = cache.ttl := rfl

@[simp] theorem invalidateAll_ttl (cache : DynamicSchemaCache) :
    cache.invalidateAll.ttl = cache.ttl := rfl

end DynamicSchemaCache

/-- The text a table is cached under. -/
def fullTable (database table : String) : String :=
  database ++ "." ++ table

/-- What the inserts of a client do with the cache they share, and the time that
passes between. -/
inductive CacheOp
  | insert (database table : String) (schema : DynamicSchema)
  | get (database table : String)
  | invalidate (database table : String)
  | invalidateAll
  | elapse (time : Nat)

namespace CacheOp

/-- One operation on a cache and the clock. -/
def apply (state : DynamicSchemaCache × Nat) : CacheOp → DynamicSchemaCache × Nat
  | .insert database table schema =>
      (state.1.insert (fullTable database table) schema state.2, state.2)
  | .get _ _ => state
  | .invalidate database table => (state.1.invalidate (fullTable database table), state.2)
  | .invalidateAll => (state.1.invalidateAll, state.2)
  | .elapse time => (state.1, state.2 + time)

/-- The table an operation is for. -/
def names : CacheOp → Option (String × String)
  | .insert database table _ | .get database table | .invalidate database table =>
      some (database, table)
  | .invalidateAll | .elapse _ => none

/-- Whether an operation inserts or drops what is cached for some names. -/
def Replaces (op : CacheOp) (isFor : String × String → Prop) : Prop :=
  match op with
  | .insert database table _ | .invalidate database table => isFor (database, table)
  | .invalidateAll => True
  | .get _ _ | .elapse _ => False

def time : CacheOp → Nat
  | .elapse time => time
  | _ => 0

end CacheOp

/-- A fresh cache after a list of operations, and the time that has passed. -/
def runCache (ttl : Nat) (ops : List CacheOp) : DynamicSchemaCache × Nat :=
  ops.foldl CacheOp.apply (⟨[], ttl⟩, 0)

def elapsed (ops : List CacheOp) : Nat :=
  (ops.map CacheOp.time).sum

/-- The schema is the last one inserted for some names, nothing has dropped it since,
and it is still fresh. -/
def LastInserted (ttl : Nat) (ops : List CacheOp) (isFor : String × String → Prop)
    (schema : DynamicSchema) : Prop :=
  ∃ before database table after, ops = before ++ .insert database table schema :: after ∧
    isFor (database, table) ∧ (∀ op ∈ after, ¬ op.Replaces isFor) ∧ elapsed after < ttl

theorem lookup_filter_ne {α : Type} (entries : List (String × α)) (removed key : String) :
    (entries.filter fun entry => entry.1 != removed).lookup key =
      if key = removed then none else entries.lookup key := by
  induction entries with
  | nil => simp
  | cons entry entries ih =>
      obtain ⟨name, value⟩ := entry
      by_cases same : name = removed
      · subst same
        rw [List.filter_cons_of_neg (by simp), ih, List.lookup_cons]
        by_cases found : key = name
        · simp [found]
        · simp [found, beq_false_of_ne found]
      · rw [List.filter_cons_of_pos (by simp [same]), List.lookup_cons, ih, List.lookup_cons]
        by_cases found : key = name
        · subst found
          simp [same]
        · simp [beq_false_of_ne found]

@[simp, grind =] theorem runCache_append (ttl : Nat) (ops : List CacheOp) (op : CacheOp) :
    runCache ttl (ops ++ [op]) = op.apply (runCache ttl ops) := by
  rw [runCache, List.foldl_append]
  rfl

@[simp, grind =]
theorem runCache_ttl (ttl : Nat) (ops : List CacheOp) : (runCache ttl ops).1.ttl = ttl := by
  induction ops using List.reverseRecOn with
  | nil => rfl
  | append_singleton ops op ih =>
      rw [runCache_append]
      cases op <;> exact ih

@[simp, grind =] theorem runCache_clock (ttl : Nat) (ops : List CacheOp) :
    (runCache ttl ops).2 = elapsed ops := by
  induction ops using List.reverseRecOn with
  | nil => rfl
  | append_singleton ops op ih =>
      rw [runCache_append, elapsed, List.map_append, List.sum_append, ← elapsed, ← ih]
      cases op <;> rfl

/-- An entry was inserted under its text, and nothing under the same text came after
it. -/
def Inserted (ops : List CacheOp) (key : String) (entry : CacheEntry) : Prop :=
  ∃ before database table after,
    ops = before ++ .insert database table entry.schema :: after ∧
    fullTable database table = key ∧ entry.fetchedAt = elapsed before ∧
    ∀ op ∈ after, ¬ op.Replaces fun names => fullTable names.1 names.2 = key

theorem Inserted.append {ops : List CacheOp} {key : String} {entry : CacheEntry} {op : CacheOp}
    (inserted : Inserted ops key entry)
    (keeps : ¬ op.Replaces fun names => fullTable names.1 names.2 = key) :
    Inserted (ops ++ [op]) key entry := by
  obtain ⟨before, database, table, after, rfl, same, fetched, kept⟩ := inserted
  refine ⟨before, database, table, after ++ [op], by simp, same, fetched, ?_⟩
  intro other member
  rcases List.mem_append.mp member with member | member
  · exact kept other member
  · rw [List.mem_singleton.mp member]
    exact keeps

/-- What is cached under a text was inserted under it. -/
theorem inserted_of_lookup {ttl : Nat} {ops : List CacheOp} {key : String}
    {entry : CacheEntry} (found : (runCache ttl ops).1.inner.lookup key = some entry) :
    Inserted ops key entry := by
  induction ops using List.reverseRecOn with
  | nil => cases found
  | append_singleton ops op ih =>
      rw [runCache_append] at found
      cases op with
      | insert database table schema =>
          change List.lookup key ((fullTable database table, _) :: _) = _ at found
          rw [List.lookup_cons] at found
          by_cases same : key = fullTable database table
          · subst same
            rw [beq_self_eq_true] at found
            cases found
            exact ⟨ops, database, table, [], rfl, rfl, runCache_clock ttl ops, by simp⟩
          · rw [beq_false_of_ne same] at found
            dsimp only at found
            rw [lookup_filter_ne, if_neg same] at found
            apply (ih found).append
            exact fun other => same other.symm
      | get database table => exact (ih found).append id
      | invalidate database table =>
          change List.lookup key (List.filter _ _) = _ at found
          rw [lookup_filter_ne] at found
          split at found
          · cases found
          · rename_i same
            apply (ih found).append
            exact fun other => same other.symm
      | invalidateAll => cases found
      | elapse time => exact (ih found).append id

/-- A lookup serves the last schema that was inserted under the text of its names. -/
theorem lastInserted_of_get {ttl : Nat} {ops : List CacheOp} {key : String}
    {schema : DynamicSchema}
    (served : (runCache ttl ops).1.get key (runCache ttl ops).2 = some schema) :
    LastInserted ttl ops (fun names => fullTable names.1 names.2 = key) schema := by
  rw [DynamicSchemaCache.get] at served
  obtain ⟨entry, found, served⟩ := Option.bind_eq_some_iff.mp served
  obtain ⟨before, database, table, after, same, joined, fetched, kept⟩ := inserted_of_lookup found
  rw [runCache_ttl, runCache_clock, fetched] at served
  split at served
  · rename_i fresh
    cases served
    refine ⟨before, database, table, after, same, joined, kept, ?_⟩
    have split : elapsed ops = elapsed before + elapsed after := by
      simp [same, elapsed, CacheOp.time]
    omega
  · cases served

/-- A lookup serves a schema only for the names it was inserted for, in every run over
some names. -/
def ServesOwn (ttl : Nat) (used : Set (String × String)) : Prop :=
  ∀ ops : List CacheOp, (∀ op ∈ ops, ∀ names ∈ op.names, names ∈ used) →
    ∀ database table schema, (database, table) ∈ used →
      (runCache ttl ops).1.get (fullTable database table) (runCache ttl ops).2 = some schema →
      LastInserted ttl ops (· = (database, table)) schema

theorem CacheOp.Replaces.imp {op : CacheOp} {isFor other : String × String → Prop}
    (implies : ∀ names, isFor names → other names) (replaces : op.Replaces isFor) :
    op.Replaces other := by
  cases op with
  | insert database table schema => exact implies _ replaces
  | invalidate database table => exact implies _ replaces
  | invalidateAll => trivial
  | get database table => exact replaces
  | elapse time => exact replaces

theorem runCache_insert_get {ttl : Nat} (fresh : 0 < ttl) {database table other name : String}
    (same : fullTable database table = fullTable other name) (schema : DynamicSchema) :
    (runCache ttl [.insert database table schema]).1.get (fullTable other name)
      (runCache ttl [.insert database table schema]).2 = some schema := by
  rw [← same]
  change (List.lookup (fullTable database table) ((fullTable database table, _) :: _)).bind _ = _
  rw [List.lookup_cons_self]
  exact if_pos fresh

/-- Names that share a text are served each other's schemas. -/
theorem injOn_of_servesOwn {ttl : Nat} {used : Set (String × String)} (fresh : 0 < ttl)
    (serves : ServesOwn ttl used) :
    Set.InjOn (fun names : String × String => fullTable names.1 names.2) used := by
  intro first isUsed second isUsed' same
  have uses : ∀ op ∈ [CacheOp.insert first.1 first.2 ⟨"", []⟩], ∀ names ∈ op.names,
      names ∈ used := by
    intro op member names isNames
    cases List.mem_singleton.mp member
    cases isNames
    exact isUsed
  have served := serves _ uses second.1 second.2 ⟨"", []⟩ isUsed'
    (runCache_insert_get fresh same _)
  obtain ⟨before, database, table, after, whole, isSecond, _⟩ := served
  have member : CacheOp.insert database table ⟨"", []⟩ ∈ [.insert first.1 first.2 ⟨"", []⟩] := by
    rw [whole]
    simp
  cases List.mem_singleton.mp member
  exact isSecond

/-- Names that do not share a text are served their own schemas. -/
theorem servesOwn_of_injOn {ttl : Nat} {used : Set (String × String)}
    (injective : Set.InjOn (fun names : String × String => fullTable names.1 names.2) used) :
    ServesOwn ttl used := by
  intro ops uses database table schema isUsed served
  obtain ⟨before, other, name, after, whole, joined, kept, fresh⟩ := lastInserted_of_get served
  have isUsed' : (other, name) ∈ used := by
    apply uses (.insert other name schema) (by simp [whole])
    rfl
  refine ⟨before, other, name, after, whole, injective isUsed' isUsed joined, ?_, fresh⟩
  intro op member replaces
  apply kept op member
  apply replaces.imp
  rintro _ rfl
  rfl

/-- The cache serves every table its own schema exactly when no two tables share a text,
or nothing ever stays fresh. -/
theorem servesOwn_iff {ttl : Nat} {used : Set (String × String)} :
    ServesOwn ttl used ↔
      ttl = 0 ∨ Set.InjOn (fun names : String × String => fullTable names.1 names.2) used := by
  constructor
  · intro serves
    rcases Nat.eq_zero_or_pos ttl with stale | fresh
    · exact .inl stale
    · exact .inr (injOn_of_servesOwn fresh serves)
  · rintro (stale | injective)
    · intro ops uses database table schema isUsed served
      obtain ⟨_, _, _, _, _, _, _, fresh⟩ := lastInserted_of_get served
      rw [stale] at fresh
      cases fresh
    · exact servesOwn_of_injOn injective

/-- The table `b.c` of `a` and the table `c` of `a.b` share a text. -/
theorem servesOwn_fails_dotted : ¬ ServesOwn 300 {("a", "b.c"), ("a.b", "c")} := by
  intro serves
  have injective := injOn_of_servesOwn (by decide) serves
  have same := injective (Set.mem_insert ..) (Set.mem_insert_of_mem _ rfl) (by decide)
  exact absurd same (by decide)

end DfeClickhouse.Dynamic
