import DfeClickhouse.Library.Postcondition
import DfeClickhouse.Native.Decode

/-!
# The queue of `Dynamic` headers

The prefix phase queues a type list for every `Dynamic` it walks over, and the data
phase takes one for every `Dynamic` it decodes; only the order ties the two together.
Both walks are written here a second time with each header labelled by the node that
pushed it and with a log of the node that took it.  Without the labels they are the
decoder's own walks.  The prefix walk descends into a `Variant` and the data phase
does not, so headers go astray exactly when a `Dynamic` is under a `Variant`, or when a
column without rows takes none at all.
-/

namespace DfeClickhouse.Native

open Library

/-- A node of a type tree: the child positions that lead to it, the last one first. -/
abbrev TypeNode := List Nat

/-- A header with the node that pushed it. -/
abbrev LabelledHeader := TypeNode × DynamicHeader

/-- A taken header: the node that took it and the node that pushed it. -/
abbrev Taken := TypeNode × TypeNode

/-! ## The labelled prefix phase -/

/-- The prefixes of children, from child `position` on. -/
def labelledChildren (nested : TypeNode → ColumnType → ByteReader (List LabelledHeader))
    (node : TypeNode) : Nat → List ColumnType → ByteReader (List LabelledHeader)
  | _, [] => pure []
  | position, child :: children => do
      let headers ← nested (position :: node) child
      let later ← labelledChildren nested node (position + 1) children
      pure (headers ++ later)

/-- A step of the prefix walk at a node. -/
def labelledPrefixesStep (nested : TypeNode → ColumnType → ByteReader (List LabelledHeader))
    (node : TypeNode) (colType : ColumnType) : ByteReader (List LabelledHeader) :=
  match colType with
  | .lowCardinality _ => do
      let _ ← readU64Le
      pure []
  | .variant types => do
      readVariantMode
      labelledChildren nested node 0 types
  | .nullable inner | .array inner | .simpleAggregateFunction inner => nested (0 :: node) inner
  | .tuple fields => labelledChildren nested node 0 fields
  | .map key value => do
      let keyHeaders ← nested (0 :: node) key
      let valueHeaders ← nested (1 :: node) value
      pure (keyHeaders ++ valueHeaders)
  | .dynamic => do
      let version ← readU64Le
      Reader.require (version = 1 ∨ version = 2)
        (.badResponse ("native: unsupported Dynamic serialization version: " ++
          toString version))
      let header ← readDynamicV1v2Prefix (version = 1)
      pure [(node, header)]
  | _ => pure []

def labelledPrefixesLevels : Nat → TypeNode → ColumnType → ByteReader (List LabelledHeader)
  | 0, _, _ => Reader.fail nestingExceeded
  | levels + 1, node, colType => labelledPrefixesStep (labelledPrefixesLevels levels) node colType

/-- The prefix walk from the root of a type. -/
def labelledPrefixes (colType : ColumnType) : ByteReader (List LabelledHeader) :=
  labelledPrefixesLevels (maxDecodeDepth + 1) [] colType

/-! ## The labelled data phase -/

/-- A decoder at a node, with the log of the headers it took. -/
abbrev LabelledDecoder := TypeNode → ColumnType → Nat → List LabelledHeader →
  ByteReader (DecodedColumn × List LabelledHeader × List Taken)

def labelledLowCardinality (nested : LabelledDecoder) (node : TypeNode) (inner : ColumnType)
    (count : Nat) (queue : List LabelledHeader) :
    ByteReader (DecodedColumn × List LabelledHeader × List Taken) := do
  let flags ← readU64Le
  let indexType := flags % 4
  let hasGlobalDict := flags.testBit 8
  let hasAdditionalKeys := flags.testBit 9
  let (dictType, isNullableInner) := dictionaryType inner
  Reader.require (hasGlobalDict = false)
    (.badResponse ("native: LowCardinality global dictionary is not supported on the " ++
      "client-server path (only per-block additional keys)"))
  Reader.require (hasAdditionalKeys = true)
    (.badResponse ("native: LowCardinality block set neither the additional-keys nor the " ++
      "global-dictionary flag"))
  let additionalKeysSize ← readU64Le
  let (combined, queue, log) ← nested (0 :: node) dictType additionalKeysSize queue
  let numIndices ← readU64Le
  Reader.require (numIndices = count)
    (.badResponse ("native: LowCardinality index count " ++ toString numIndices ++
      " != row count " ++ toString count))
  let indices ← decodeIndices indexType count
  pure (.lowCardinality combined indices isNullableInner, queue, log)

/-- The fields of a tuple, from field `position` on. -/
def labelledFields (nested : LabelledDecoder) (node : TypeNode) (count : Nat) :
    Nat → List ColumnType → List LabelledHeader →
      ByteReader (List DecodedColumn × List LabelledHeader × List Taken)
  | _, [], queue => pure ([], queue, [])
  | position, field :: fields, queue => do
      let (column, queue, log) ← nested (position :: node) field count queue
      let (columns, queue, later) ← labelledFields nested node count (position + 1) fields queue
      pure (column :: columns, queue, log ++ later)

/-- One level of the data phase at a node.  The types whose data holds no queued header
are decoded as in the source. -/
def labelledColumnStep (nested : LabelledDecoder) (depth : Nat) (node : TypeNode)
    (colType : ColumnType) (count : Nat) (queue : List LabelledHeader) :
    ByteReader (DecodedColumn × List LabelledHeader × List Taken) :=
  match colType with
  | .nullable inner => do
      let mask ← readExact count
      let (child, queue, log) ← nested (0 :: node) inner count queue
      pure (.nullable mask child, queue, log)
  | .array inner => do
      let offsets ← readMonotoneOffsets "Array" count 0
      let total := offsets.getLast?.getD 0
      let (child, queue, log) ← nested (0 :: node) inner total queue
      pure (.array offsets child, queue, log)
  | .tuple fields => do
      let (columns, queue, log) ← labelledFields nested node count 0 fields queue
      pure (.tuple columns, queue, log)
  | .map keyType valType => do
      let offsets ← readMonotoneOffsets "Map" count 0
      let total := offsets.getLast?.getD 0
      let (keys, queue, keyLog) ← nested (0 :: node) keyType total queue
      let (values, queue, valueLog) ← nested (1 :: node) valType total queue
      pure (.map offsets keys values, queue, keyLog ++ valueLog)
  | .lowCardinality inner => labelledLowCardinality nested node inner count queue
  | .simpleAggregateFunction inner => nested (0 :: node) inner count queue
  | .dynamic =>
      match queue with
      | [] => Reader.fail (.badResponse "native: Dynamic column has no serialisation prefix")
      | (pusher, header) :: queue => do
          let cells ← readDynamicV1v2Body
            (fun colType count => readColumnAt colType count (depth + 2)) count header
          let documents ← Reader.ofExcept (unwrapJsonCells cells)
          pure (.json documents, queue, [(node, pusher)])
  | other => do
      let (column, _) ← decodeColumnStep
        (fun _ _ _ => Reader.fail nestingExceeded) depth other count []
      pure (column, queue, [])

def labelledColumnLevels : Nat → LabelledDecoder
  | 0, _, _, _, _ => Reader.fail nestingExceeded
  | levels + 1, node, colType, count, queue =>
      if levels = maxDecodeDepth ∧ count = 0 then
        pure (emptyColumn colType, queue, [])
      else
        labelledColumnStep (labelledColumnLevels levels)
          (maxDecodeDepth - levels) node colType count
          queue

/-- The data phase from the root of a type. -/
def labelledColumn (colType : ColumnType) (count : Nat) (queue : List LabelledHeader) :
    ByteReader (DecodedColumn × List LabelledHeader × List Taken) :=
  labelledColumnLevels (maxDecodeDepth + 1) [] colType count queue

/-! ## Without the labels -/

/-- The headers of a labelled queue. -/
def unlabelled (queue : List LabelledHeader) : List DynamicHeader := queue.map Prod.snd

@[simp, grind =] theorem unlabelled_append (first second : List LabelledHeader) :
    unlabelled (first ++ second) = unlabelled first ++ unlabelled second :=
  List.map_append

/-- The column and the headers left by a labelled run. -/
def withoutLog {α : Type} (result : α × List LabelledHeader × List Taken) :
    α × List DynamicHeader :=
  (result.1, unlabelled result.2.1)

theorem unlabelled_labelledChildren
    {nested : TypeNode → ColumnType → ByteReader (List LabelledHeader)}
    {plain : ColumnType → ByteReader (List DynamicHeader)}
    (same : ∀ node colType, unlabelled <$> nested node colType = plain colType) (node : TypeNode)
    (position : Nat) (types : List ColumnType) :
    unlabelled <$> labelledChildren nested node position types =
      (Reader.each plain types >>= fun headers => pure headers.flatten) := by
  induction types generalizing position with
  | nil => rfl
  | cons type types ih =>
      rw [labelledChildren, Reader.each, ← same (position :: node) type]
      simp only [map_bind, bind_assoc, bind_map_left, pure_bind, map_pure, unlabelled_append,
        List.flatten_cons]
      apply bind_congr
      intro headers
      have later := ih (position + 1)
      rw [map_eq_pure_bind] at later
      have mapped := congrArg (fun reader => (unlabelled headers ++ ·) <$> reader) later
      simpa only [map_bind, map_pure, bind_assoc, pure_bind] using mapped

theorem unlabelled_labelledPrefixes (levels : Nat) (node : TypeNode) (colType : ColumnType) :
    unlabelled <$> labelledPrefixesLevels levels node colType =
      decodePrefixesLevels levels colType := by
  induction levels generalizing node colType with
  | zero => rfl
  | succ levels ih =>
      rw [labelledPrefixesLevels, decodePrefixesLevels]
      cases colType with
      | nullable inner | array inner | simpleAggregateFunction inner => exact ih _ inner
      | tuple fields => exact unlabelled_labelledChildren ih node 0 fields
      | variant types =>
          rw [labelledPrefixesStep, decodePrefixesStep, map_bind]
          apply bind_congr
          intro _
          exact unlabelled_labelledChildren ih node 0 types
      | map key value =>
          rw [labelledPrefixesStep, decodePrefixesStep, ← ih (0 :: node) key,
            ← ih (1 :: node) value]
          simp only [map_bind, bind_map_left, map_pure, unlabelled_append]
      | dynamic | lowCardinality =>
          rw [labelledPrefixesStep, decodePrefixesStep]
          simp only [map_bind, map_pure]
          rfl
      | _ => rfl

section Data

variable {nested : LabelledDecoder} {plain : ColumnDecoder}
  (same : ∀ node colType count queue,
    withoutLog <$> nested node colType count queue = plain colType count (unlabelled queue))

include same

theorem withoutLog_labelledFields (node : TypeNode) (count position : Nat)
    (fields : List ColumnType)
    (queue : List LabelledHeader) :
    withoutLog <$> labelledFields nested node count position fields queue =
      decodeFields plain count fields (unlabelled queue) := by
  induction fields generalizing position queue with
  | nil => rfl
  | cons field fields ih =>
      rw [labelledFields, decodeFields, ← same (position :: node) field count queue]
      simp only [map_bind, bind_map_left, map_pure]
      apply bind_congr
      intro first
      simp only [withoutLog]
      rw [← ih (position + 1) first.2.1]
      simp only [bind_map_left]
      rfl

theorem withoutLog_labelledLowCardinality (node : TypeNode) (inner : ColumnType) (count : Nat)
    (queue : List LabelledHeader) :
    withoutLog <$> labelledLowCardinality nested node inner count queue =
      decodeLowCardinality plain inner count (unlabelled queue) := by
  unfold labelledLowCardinality decodeLowCardinality
  simp only [map_bind, map_pure]
  apply bind_congr
  intro flags
  apply bind_congr
  intro _
  apply bind_congr
  intro _
  apply bind_congr
  intro size
  rw [← same (0 :: node) _ size queue]
  simp only [bind_map_left]
  rfl

theorem withoutLog_labelledColumnStep (depth : Nat) (node : TypeNode) (colType : ColumnType)
    (count : Nat) (queue : List LabelledHeader) :
    withoutLog <$> labelledColumnStep nested depth node colType count queue =
      decodeColumnStep plain depth colType count (unlabelled queue) := by
  cases colType with
  | nullable inner =>
      rw [labelledColumnStep, decodeColumnStep]
      simp only [map_bind, map_pure]
      apply bind_congr
      intro mask
      rw [← same (0 :: node) inner count queue]
      simp only [bind_map_left]
      rfl
  | array inner =>
      rw [labelledColumnStep, decodeColumnStep]
      simp only [map_bind, map_pure]
      apply bind_congr
      intro offsets
      rw [← same (0 :: node) inner _ queue]
      simp only [bind_map_left]
      rfl
  | tuple fields =>
      rw [labelledColumnStep, decodeColumnStep,
        ← withoutLog_labelledFields same node count 0 fields queue]
      simp only [map_bind, map_pure, bind_map_left]
      rfl
  | map keyType valType =>
      rw [labelledColumnStep, decodeColumnStep]
      simp only [map_bind, map_pure]
      apply bind_congr
      intro offsets
      rw [← same (0 :: node) keyType _ queue]
      simp only [bind_map_left]
      apply bind_congr
      intro keys
      simp only [withoutLog]
      rw [← same (1 :: node) valType _ keys.2.1]
      simp only [bind_map_left]
      rfl
  | lowCardinality inner => exact withoutLog_labelledLowCardinality same node inner count queue
  | simpleAggregateFunction inner => exact same (0 :: node) inner count queue
  | dynamic =>
      cases queue with
      | nil => rfl
      | cons header queue =>
          rw [labelledColumnStep]
          simp only [map_bind, map_pure]
          rfl
  | newJson =>
      simp only [labelledColumnStep, decodeColumnStep, map_bind, map_pure, bind_assoc]
      apply bind_congr
      intro version
      split
      · simp only [bind_assoc, pure_bind]
        rfl
      · simp only [bind_assoc, pure_bind]
        rfl
  | _ =>
      simp only [labelledColumnStep, decodeColumnStep, map_bind, map_pure, bind_assoc, pure_bind]
      rfl

end Data

theorem withoutLog_labelledColumnLevels (levels : Nat) (node : TypeNode) (colType : ColumnType)
    (count : Nat) (queue : List LabelledHeader) :
    withoutLog <$> labelledColumnLevels levels node colType count queue =
      decodeColumnLevels levels colType count (unlabelled queue) := by
  induction levels generalizing node colType count queue with
  | zero => rfl
  | succ levels ih =>
      rw [labelledColumnLevels, decodeColumnLevels]
      split
      · rfl
      · exact withoutLog_labelledColumnStep ih _ node colType count queue

/-! ## Who pushes and who takes -/

mutual

/-- Whether a `Dynamic` is anywhere in a type. -/
def ColumnType.hasDynamic : ColumnType → Bool
  | .dynamic => true
  | .nullable inner | .lowCardinality inner | .simpleAggregateFunction inner | .array inner =>
      inner.hasDynamic
  | .tuple types | .variant types => ColumnType.haveDynamic types
  | .map key value => key.hasDynamic || value.hasDynamic
  | _ => false

/-- Whether a `Dynamic` is anywhere in one of the types. -/
def ColumnType.haveDynamic : List ColumnType → Bool
  | [] => false
  | type :: types => type.hasDynamic || ColumnType.haveDynamic types

end

mutual

/-- Whether every `Dynamic` is outside dictionaries. -/
def ColumnType.dynamicAllowed : ColumnType → Bool
  | .lowCardinality inner => !inner.hasDynamic
  | .nullable inner | .simpleAggregateFunction inner | .array inner => inner.dynamicAllowed
  | .tuple types | .variant types => ColumnType.dynamicsAllowed types
  | .map key value => key.dynamicAllowed && value.dynamicAllowed
  | _ => true

/-- Whether every `Dynamic` of all types is outside dictionaries. -/
def ColumnType.dynamicsAllowed : List ColumnType → Bool
  | [] => true
  | type :: types => type.dynamicAllowed && ColumnType.dynamicsAllowed types

end

mutual

/-- Whether a `Dynamic` is under a `Variant`. -/
def ColumnType.variantHoldsDynamic : ColumnType → Bool
  | .variant types => ColumnType.haveDynamic types
  | .nullable inner | .simpleAggregateFunction inner | .array inner => inner.variantHoldsDynamic
  | .tuple types => ColumnType.variantsHoldDynamic types
  | .map key value => key.variantHoldsDynamic || value.variantHoldsDynamic
  | _ => false

/-- Whether a `Dynamic` is under a `Variant` in one of the types. -/
def ColumnType.variantsHoldDynamic : List ColumnType → Bool
  | [] => false
  | type :: types => type.variantHoldsDynamic || ColumnType.variantsHoldDynamic types

end

mutual

/-- The nodes the prefix phase queues a header for, in order. -/
def pushers (node : TypeNode) : ColumnType → List TypeNode
  | .dynamic => [node]
  | .nullable inner | .simpleAggregateFunction inner | .array inner => pushers (0 :: node) inner
  | .tuple types | .variant types => pushersFrom node 0 types
  | .map key value => pushers (0 :: node) key ++ pushers (1 :: node) value
  | _ => []

/-- The pushing nodes of children, from child `position` on. -/
def pushersFrom (node : TypeNode) (position : Nat) : List ColumnType → List TypeNode
  | [] => []
  | type :: types => pushers (position :: node) type ++ pushersFrom node (position + 1) types

end

mutual

/-- The nodes outside dictionaries that the data phase takes a header for, in order. -/
def takers (node : TypeNode) : ColumnType → List TypeNode
  | .dynamic => [node]
  | .nullable inner | .simpleAggregateFunction inner | .array inner => takers (0 :: node) inner
  | .tuple types => takersFrom node 0 types
  | .map key value => takers (0 :: node) key ++ takers (1 :: node) value
  | _ => []

/-- The taking nodes of fields, from field `position` on. -/
def takersFrom (node : TypeNode) (position : Nat) : List ColumnType → List TypeNode
  | [] => []
  | type :: types => takers (position :: node) type ++ takersFrom node (position + 1) types

end

namespace ColumnType

@[simp] theorem haveDynamic_eq_false_iff {types : List ColumnType} :
    haveDynamic types = false ↔ ∀ type ∈ types, type.hasDynamic = false := by
  induction types with
  | nil => simp [haveDynamic]
  | cons type types ih => simp [haveDynamic, ih]

@[simp] theorem dynamicsAllowed_iff {types : List ColumnType} :
    dynamicsAllowed types = true ↔ ∀ type ∈ types, type.dynamicAllowed = true := by
  induction types with
  | nil => simp [dynamicsAllowed]
  | cons type types ih => simp [dynamicsAllowed, ih]

@[simp] theorem hasDynamic_dictionaryType (inner : ColumnType) :
    (dictionaryType inner).1.hasDynamic = inner.hasDynamic := by
  rcases dictionaryType_cases inner with ⟨type, rfl, _⟩ | same
  · rfl
  · rw [same]

/-- Nothing is wrong with a type that has no `Dynamic`. -/
theorem dynamicAllowed_of_not_hasDynamic {colType : ColumnType}
    (none : colType.hasDynamic = false) : colType.dynamicAllowed = true := by
  induction colType using ColumnType.induction_children with
  | step colType ih =>
      cases colType with
      | nullable inner | simpleAggregateFunction inner | array inner =>
          exact ih inner (by simp [children]) none
      | lowCardinality inner =>
          rw [hasDynamic] at none
          rw [dynamicAllowed, none]
          rfl
      | tuple types | variant types =>
          rw [hasDynamic, haveDynamic_eq_false_iff] at none
          rw [dynamicAllowed, dynamicsAllowed_iff]
          intro type member
          exact ih type member (none type member)
      | map key value =>
          rw [hasDynamic, Bool.or_eq_false_iff] at none
          rw [dynamicAllowed, ih key (by simp [children]) none.1,
            ih value (by simp [children]) none.2]
          rfl
      | _ => rfl

end ColumnType

open ColumnType

theorem pushersFrom_eq_nil_iff {types : List ColumnType}
    (each : ∀ type ∈ types, ∀ node, pushers node type = [] ↔ type.hasDynamic = false)
    (node : TypeNode) (position : Nat) :
    pushersFrom node position types = [] ↔ haveDynamic types = false := by
  induction types generalizing position with
  | nil => simp [pushersFrom, haveDynamic]
  | cons type types ih =>
      rw [pushersFrom, haveDynamic, List.append_eq_nil_iff, Bool.or_eq_false_iff,
        each type (by simp), ih fun type member => each type (by simp [member])]

/-- Outside dictionaries, every `Dynamic` has its header queued. -/
theorem pushers_eq_nil_iff {colType : ColumnType} (allowed : colType.dynamicAllowed = true)
    (node : TypeNode) : pushers node colType = [] ↔ colType.hasDynamic = false := by
  induction colType using ColumnType.induction_children generalizing node with
  | step colType ih =>
      cases colType with
      | nullable inner | simpleAggregateFunction inner | array inner =>
          exact ih inner (by simp [children]) allowed (0 :: node)
      | lowCardinality inner =>
          rw [dynamicAllowed, Bool.not_eq_true'] at allowed
          simp [pushers, hasDynamic, allowed]
      | tuple types | variant types =>
          rw [dynamicAllowed, dynamicsAllowed_iff] at allowed
          exact pushersFrom_eq_nil_iff (fun type member =>
            ih type member (allowed type member)) node 0
      | map key value =>
          rw [dynamicAllowed, Bool.and_eq_true] at allowed
          rw [pushers, hasDynamic, List.append_eq_nil_iff, Bool.or_eq_false_iff,
            ih key (by simp [children]) allowed.1, ih value (by simp [children]) allowed.2]
      | dynamic => simp [pushers, hasDynamic]
      | _ => simp [pushers, hasDynamic]

/-- What the two walks have in common: the nodes that take are among those that push, and
all of them when no `Variant` holds a `Dynamic`. -/
def WalksMatch (pushing taking : List TypeNode) (strays : Bool) : Prop :=
  taking.length ≤ pushing.length ∧ (strays = true → taking.length < pushing.length) ∧
    (strays = false → pushing = taking)

theorem WalksMatch.same (nodes : List TypeNode) : WalksMatch nodes nodes false := by
  refine ⟨Nat.le_refl _, ?_, fun _ => rfl⟩
  intro astray
  cases astray

theorem WalksMatch.append {pushing taking pushing' taking' : List TypeNode} {strays strays' : Bool}
    (first : WalksMatch pushing taking strays) (second : WalksMatch pushing' taking' strays') :
    WalksMatch (pushing ++ pushing') (taking ++ taking') (strays || strays') := by
  obtain ⟨fewer, lost, kept⟩ := first
  obtain ⟨fewer', lost', kept'⟩ := second
  refine ⟨?_, ?_, ?_⟩
  · rw [List.length_append, List.length_append]
    omega
  · intro either
    rw [List.length_append, List.length_append]
    rcases Bool.or_eq_true_iff.mp either with astray | astray
    · have := lost astray
      omega
    · have := lost' astray
      omega
  · intro neither
    rw [Bool.or_eq_false_iff] at neither
    rw [kept neither.1, kept' neither.2]

theorem walksMatch_from {types : List ColumnType}
    (each : ∀ type ∈ types, ∀ node,
      WalksMatch (pushers node type) (takers node type) type.variantHoldsDynamic)
    (node : TypeNode) (position : Nat) :
    WalksMatch (pushersFrom node position types) (takersFrom node position types)
      (variantsHoldDynamic types) := by
  induction types generalizing position with
  | nil => exact .same []
  | cons type types ih =>
      exact (each type (by simp) _).append (ih (fun type member => each type (by simp [member])) _)

theorem walksMatch {colType : ColumnType} (allowed : colType.dynamicAllowed = true)
    (node : TypeNode) :
    WalksMatch (pushers node colType) (takers node colType) colType.variantHoldsDynamic := by
  induction colType using ColumnType.induction_children generalizing node with
  | step colType ih =>
      cases colType with
      | nullable inner | simpleAggregateFunction inner | array inner =>
          exact ih inner (by simp [children]) allowed (0 :: node)
      | tuple types =>
          rw [dynamicAllowed, dynamicsAllowed_iff] at allowed
          exact walksMatch_from (fun type member => ih type member (allowed type member)) node 0
      | map key value =>
          rw [dynamicAllowed, Bool.and_eq_true] at allowed
          exact (ih key (by simp [children]) allowed.1 _).append
            (ih value (by simp [children]) allowed.2 _)
      | variant types =>
          have empty := pushers_eq_nil_iff allowed node
          refine ⟨Nat.zero_le _, ?_, ?_⟩
          · intro astray
            apply List.length_pos_iff.mpr
            intro none
            have held : haveDynamic types = false := empty.mp none
            rw [variantHoldsDynamic, held] at astray
            cases astray
          · intro kept
            exact empty.mpr kept
      | _ => exact .same _

/-! ## Runs -/

theorem yields_labelledChildren
    {nested : TypeNode → ColumnType → ByteReader (List LabelledHeader)}
    (pushes : ∀ node colType, Reader.Yields (nested node colType)
      fun queue => queue.map Prod.fst = pushers node colType)
    (node : TypeNode) (position : Nat) (types : List ColumnType) :
    Reader.Yields (labelledChildren nested node position types)
      fun queue => queue.map Prod.fst = pushersFrom node position types := by
  induction types generalizing position with
  | nil => exact Reader.Yields.pure rfl
  | cons type types ih =>
      rw [labelledChildren]
      refine (pushes _ type).bind fun headers first => (ih _).bind fun later rest => ?_
      apply Reader.Yields.pure
      rw [List.map_append, first, rest, pushersFrom]

theorem yields_labelledPrefixes (levels : Nat) (node : TypeNode) (colType : ColumnType) :
    Reader.Yields (labelledPrefixesLevels levels node colType)
      fun queue => queue.map Prod.fst = pushers node colType := by
  induction levels generalizing node colType with
  | zero => exact Reader.Yields.fail _ _
  | succ levels ih =>
      rw [labelledPrefixesLevels]
      cases colType with
      | nullable inner | array inner | simpleAggregateFunction inner => exact ih _ inner
      | tuple types => exact yields_labelledChildren ih node 0 types
      | variant types => exact Reader.Yields.after fun _ => yields_labelledChildren ih node 0 types
      | map key value =>
          refine (ih _ key).bind fun keys first => (ih _ value).bind fun values second => ?_
          apply Reader.Yields.pure
          rw [List.map_append, first, second, pushers]
      | lowCardinality inner => exact Reader.Yields.after fun _ => Reader.Yields.pure rfl
      | dynamic =>
          exact Reader.Yields.after fun _ => Reader.Yields.after fun _ =>
            Reader.Yields.after fun _ =>
            Reader.Yields.pure rfl
      | _ => exact Reader.Yields.pure rfl

/-- A run took the first headers of its queue, for the given nodes in order. -/
def Takes {α : Type} (queue : List LabelledHeader) (nodes : List TypeNode)
    (result : α × List LabelledHeader × List Taken) : Prop :=
  queue.map Prod.fst = result.2.2.map Prod.snd ++ result.2.1.map Prod.fst ∧
    result.2.2.map Prod.fst = nodes

theorem Takes.nothing {α : Type} (queue : List LabelledHeader) (value : α) :
    Takes queue [] (value, queue, []) :=
  ⟨rfl, rfl⟩

/-- Two runs in sequence, the second on what the first left. -/
theorem Takes.append {α β γ : Type} {queue : List LabelledHeader} {nodes nodes' : List TypeNode}
    {first : α × List LabelledHeader × List Taken} {second : β × List LabelledHeader × List Taken}
    (takes : Takes queue nodes first) (takes' : Takes first.2.1 nodes' second) (value : γ) :
    Takes queue (nodes ++ nodes') (value, second.2.1, first.2.2 ++ second.2.2) := by
  constructor
  · rw [takes.1, takes'.1, List.map_append, List.append_assoc]
  · rw [List.map_append, takes.2, takes'.2]

theorem takers_eq_nil {colType : ColumnType} (none : colType.hasDynamic = false) (node : TypeNode) :
    takers node colType = [] := by
  have allowed := dynamicAllowed_of_not_hasDynamic none
  have empty := (pushers_eq_nil_iff allowed node).mpr none
  have fewer := (walksMatch allowed node).1
  rw [empty] at fewer
  exact List.eq_nil_of_length_eq_zero (Nat.le_zero.mp fewer)

/-- The decoder of the next level takes headers for the right nodes. -/
def NestedTakes (nested : LabelledDecoder) : Prop :=
  ∀ node colType count queue, colType.dynamicAllowed = true →
    Reader.Yields (nested node colType count queue) (Takes queue (takers node colType))

section Step

variable {nested : LabelledDecoder}

theorem yields_labelledFields (takes : NestedTakes nested) (node : TypeNode) (count position : Nat)
    {types : List ColumnType} (allowed : dynamicsAllowed types = true)
    (queue : List LabelledHeader) :
    Reader.Yields (labelledFields nested node count position types queue)
      (Takes queue (takersFrom node position types)) := by
  induction types generalizing position queue with
  | nil => exact Reader.Yields.pure (.nothing queue [])
  | cons type types ih =>
      rw [dynamicsAllowed, Bool.and_eq_true] at allowed
      rw [labelledFields]
      refine (takes _ type count queue allowed.1).bind fun first taken => ?_
      refine (ih _ allowed.2 first.2.1).bind fun later rest => ?_
      exact Reader.Yields.pure (taken.append rest _)

theorem yields_labelledColumnStep (takes : NestedTakes nested) (depth : Nat) (node : TypeNode)
    {colType : ColumnType} (allowed : colType.dynamicAllowed = true) (count : Nat)
    (queue : List LabelledHeader) :
    Reader.Yields (labelledColumnStep nested depth node colType count queue)
      (Takes queue (takers node colType)) := by
  cases colType with
  | nullable inner =>
      exact Reader.Yields.after fun _ => (takes _ inner _ queue allowed).bind
        fun _ taken => Reader.Yields.pure taken
  | array inner =>
      exact Reader.Yields.after fun _ => (takes _ inner _ queue allowed).bind
        fun _ taken => Reader.Yields.pure taken
  | simpleAggregateFunction inner => exact takes _ inner count queue allowed
  | tuple types =>
      exact (yields_labelledFields takes node count 0 allowed queue).bind
        fun _ taken => Reader.Yields.pure taken
  | map keyType valType =>
      rw [dynamicAllowed, Bool.and_eq_true] at allowed
      refine Reader.Yields.after fun _ =>
        (takes _ keyType _ queue allowed.1).bind fun keys taken => ?_
      refine (takes _ valType _ keys.2.1 allowed.2).bind fun values rest => ?_
      exact Reader.Yields.pure (taken.append rest _)
  | lowCardinality inner =>
      have none : (dictionaryType inner).1.hasDynamic = false := by
        rw [hasDynamic_dictionaryType]
        rwa [dynamicAllowed, Bool.not_eq_true'] at allowed
      refine Reader.Yields.after fun _ => Reader.Yields.after fun _ => Reader.Yields.after fun _ =>
        Reader.Yields.after fun size => ?_
      refine (takes _ _ size queue (dynamicAllowed_of_not_hasDynamic none)).bind
        fun dict taken => ?_
      rw [takers_eq_nil none] at taken
      exact Reader.Yields.after fun _ => Reader.Yields.after fun _ => Reader.Yields.after fun _ =>
        Reader.Yields.pure taken
  | dynamic =>
      cases queue with
      | nil => exact Reader.Yields.fail _ _
      | cons header queue =>
          exact Reader.Yields.after fun _ => Reader.Yields.after fun _ =>
            Reader.Yields.pure ⟨rfl, rfl⟩
  | _ => exact Reader.Yields.after fun _ => Reader.Yields.pure (.nothing queue _)

end Step

theorem nestedTakes_levels {levels : Nat} (inner : levels ≤ maxDecodeDepth) :
    NestedTakes (labelledColumnLevels levels) := by
  induction levels with
  | zero =>
      intro node colType count queue allowed
      exact Reader.Yields.fail _ _
  | succ levels ih =>
      intro node colType count queue allowed
      rw [labelledColumnLevels, if_neg (by omega)]
      exact yields_labelledColumnStep (ih (Nat.le_of_succ_le inner)) _ node allowed count queue

theorem yields_labelledColumn {colType : ColumnType} (allowed : colType.dynamicAllowed = true)
    (count : Nat) (queue : List LabelledHeader) :
    Reader.Yields (labelledColumn colType count queue)
      (Takes queue (if count = 0 then [] else takers [] colType)) := by
  rw [labelledColumn, labelledColumnLevels]
  by_cases none : count = 0
  · rw [if_pos ⟨rfl, none⟩, if_pos none]
    exact Reader.Yields.pure (.nothing queue _)
  · rw [if_neg fun top => none top.2, if_neg none]
    exact yields_labelledColumnStep (nestedTakes_levels (Nat.le_refl _)) _ [] allowed count queue

/-- Every header was taken by the node that pushed it, and none is left, exactly if the
nodes that push are the nodes that take. -/
theorem Takes.own_iff {α : Type} {queue : List LabelledHeader} {nodes : List TypeNode}
    {result : α × List LabelledHeader × List Taken} (takes : Takes queue nodes result) :
    (result.2.2 = queue.map (fun header => (header.1, header.1)) ∧ result.2.1 = []) ↔
      queue.map Prod.fst = nodes := by
  obtain ⟨taken, named⟩ := takes
  constructor
  · rintro ⟨own, _⟩
    rw [← named, own, List.map_map]
    rfl
  · intro same
    have lengths := congrArg List.length taken
    have counted := congrArg List.length named
    rw [← same] at counted
    simp only [List.length_append, List.length_map] at lengths counted
    have left : result.2.1 = [] := List.eq_nil_of_length_eq_zero (by omega)
    rw [left, List.map_nil, List.append_nil] at taken
    refine ⟨?_, left⟩
    have paired := List.zip_unzip result.2.2
    rw [List.unzip_eq_map, named, ← taken, ← same, List.zip_map'] at paired
    exact paired.symm

/-- The nodes that push are the nodes that take exactly if no `Dynamic` is under a
`Variant`, and there is a row to take headers for. -/
theorem pushers_eq_takers_iff {colType : ColumnType} (allowed : colType.dynamicAllowed = true)
    (count : Nat) :
    pushers [] colType = (if count = 0 then [] else takers [] colType) ↔
      colType.variantHoldsDynamic = false ∧ (0 < count ∨ colType.hasDynamic = false) := by
  obtain ⟨_, lost, kept⟩ := walksMatch allowed []
  have empty := pushers_eq_nil_iff allowed []
  by_cases none : count = 0
  · subst none
    rw [if_pos rfl, empty]
    constructor
    · intro absent
      refine ⟨?_, .inr absent⟩
      by_contra astray
      have fewer := lost (Bool.of_not_eq_false astray)
      rw [empty.mpr absent] at fewer
      exact absurd fewer (Nat.not_lt_zero _)
    · rintro ⟨_, some | absent⟩
      · exact absurd some (Nat.lt_irrefl 0)
      · exact absent
  · rw [if_neg none]
    constructor
    · intro same
      refine ⟨?_, .inl (Nat.pos_of_ne_zero none)⟩
      by_contra astray
      have fewer := lost (Bool.of_not_eq_false astray)
      rw [same] at fewer
      exact absurd fewer (Nat.lt_irrefl _)
    · intro condition
      exact kept condition.1

/-- After both phases, every header was taken by the node that pushed it and the queue is
empty, exactly if no `Dynamic` is under a `Variant` and the data phase has a row. -/
theorem decodeColumn_headers_iff {colType : ColumnType} (allowed : colType.dynamicAllowed = true)
    {count : Nat} {input middle rest : Bytes} {headers left : List DynamicHeader}
    {column : DecodedColumn} (prefixes : decodePrefixes colType input = .ok (headers, middle))
    (data : decodeColumn colType count 0 headers middle = .ok ((column, left), rest)) :
    ∃ queue unused log, labelledPrefixes colType input = .ok (queue, middle) ∧
      unlabelled queue = headers ∧
      labelledColumn colType count queue middle = .ok ((column, unused, log), rest) ∧
      unlabelled unused = left ∧
      ((log = queue.map (fun header => (header.1, header.1)) ∧ unused = []) ↔
        colType.variantHoldsDynamic = false ∧ (0 < count ∨ colType.hasDynamic = false)) := by
  have first : (unlabelled <$> labelledPrefixes colType) input = .ok (headers, middle) := by
    rw [labelledPrefixes, unlabelled_labelledPrefixes]
    exact prefixes
  rw [map_eq_pure_bind] at first
  obtain ⟨queue, _, labelled, first⟩ := Reader.bind_ok_iff.mp first
  cases first
  have second : (withoutLog <$> labelledColumn colType count queue) middle =
      .ok ((column, left), rest) := by
    rw [labelledColumn, withoutLog_labelledColumnLevels]
    exact data
  rw [map_eq_pure_bind] at second
  obtain ⟨⟨column, unused, log⟩, _, run, second⟩ := Reader.bind_ok_iff.mp second
  cases second
  refine ⟨queue, unused, log, labelled, rfl, run, rfl, ?_⟩
  have takes := yields_labelledColumn allowed count queue _ _ _ run
  have pushed := yields_labelledPrefixes _ _ _ _ _ _ labelled
  rw [← pushers_eq_takers_iff allowed count, ← pushed]
  exact takes.own_iff

/-- The prefix of a `Dynamic` column without declared types. -/
def emptyDynamicPrefix : Bytes := natLe 8 2 ++ [0] ++ natLe 8 0

theorem decodeColumn_headers_iff_list :
    ColumnType.dynamicAllowed (.array .dynamic) = true ∧
    ∃ queue unused log,
      labelledPrefixes (.array .dynamic) (emptyDynamicPrefix ++ natLe 8 1 ++ [255]) =
        .ok (queue, natLe 8 1 ++ [255]) ∧
      labelledColumn (.array .dynamic) 1 queue (natLe 8 1 ++ [255]) =
        .ok ((.array [1] (.json [utf8 "null"]), unused, log), []) ∧
      log = queue.map (fun header => (header.1, header.1)) ∧ unused = [] := by
  have prefixes : decodePrefixes (.array .dynamic) (emptyDynamicPrefix ++ natLe 8 1 ++ [255]) =
      .ok ([⟨["SharedVariant"]⟩], natLe 8 1 ++ [255]) := by with_unfolding_all rfl
  have data : decodeColumn (.array .dynamic) 1 0 [⟨["SharedVariant"]⟩] (natLe 8 1 ++ [255]) =
      .ok ((.array [1] (.json [utf8 "null"]), []), []) := by with_unfolding_all rfl
  obtain ⟨queue, unused, log, first, _, second, _, own⟩ :=
    decodeColumn_headers_iff rfl prefixes data
  exact ⟨rfl, queue, unused, log, first, second, own.mpr ⟨rfl, .inl Nat.one_pos⟩⟩

/-- A tuple of a `Variant` of `Dynamic` and a `Dynamic`: the prefixes of both, a NULL with
the prefix its arm reads again, and a NULL. -/
def astrayInput : Bytes :=
  natLe 8 0 ++ emptyDynamicPrefix ++ emptyDynamicPrefix ++ ([255] ++ emptyDynamicPrefix ++ [255])

/-- The second field takes the header of the `Dynamic` under the `Variant`, and its own stays
in the queue. -/
theorem headers_astray_variant :
    ¬ ∀ colType count input headers middle column left rest queue unused log,
      ColumnType.dynamicAllowed colType = true →
      decodePrefixes colType input = .ok (headers, middle) →
      decodeColumn colType count 0 headers middle = .ok ((column, left), rest) →
      labelledPrefixes colType input = .ok (queue, middle) →
      labelledColumn colType count queue middle = .ok ((column, unused, log), rest) →
      log = queue.map (fun header => (header.1, header.1)) ∧ unused = [] := by
  intro law
  have own := law (.tuple [.variant [.dynamic], .dynamic]) 1 astrayInput
    [⟨["SharedVariant"]⟩, ⟨["SharedVariant"]⟩] ([255] ++ emptyDynamicPrefix ++ [255])
    (.tuple [.json [utf8 "null"], .json [utf8 "null"]]) [⟨["SharedVariant"]⟩] []
    [([0, 0], ⟨["SharedVariant"]⟩), ([1], ⟨["SharedVariant"]⟩)] [([1], ⟨["SharedVariant"]⟩)]
    [([1], [0, 0])] rfl (by with_unfolding_all rfl) (by with_unfolding_all rfl)
    (by with_unfolding_all rfl) (by with_unfolding_all rfl)
  cases own.2

end DfeClickhouse.Native
