import MemShell.Map.Assoc
import MemShell.Settings.Store

/-!
# Looking up settings

A key is a way through the settings, part by part: from all of them to a section, and from there to
a field. Beyond the fields there are the parts that a thing has by its nature: the nature itself,
what it tells of all its members, and its operations. A value is stored in a field at the end of
such a way.
-/

namespace MemShell

/-- An operation in one of its forms. -/
structure Operation where
  /-- The name. -/
  name : Text
  /-- The form in which it is met. -/
  form : OperationForm
  /-- The nature that it is counted among. -/
  holder : Nature

/-- What a way through the settings leads to. -/
inductive Spot
  /-- All settings. -/
  | all
  /-- A whole section with its fields. -/
  | wholeSection (name : SectionName) (fields : Fields)
  /-- A value. -/
  | value (value : Json)
  /-- A row of values. -/
  | row (items : List Json)
  /-- A nature. -/
  | nature (own : Nature)
  /-- Something of a nature, the contents of which are no values. -/
  | member (own : Nature)
  /-- An operation by itself. -/
  | operation (operation : Operation)
  /-- An operation at what it works on. -/
  | bound (operation : Operation) (subject : Spot)

/-- The parts of a number: its real and imaginary part, and those of a whole one as a fraction. -/
def Json.numberParts (value : Json) : Fields :=
  match value with
  | float _ => [("real".toList, value), ("imag".toList, .float (.finite false 0 0))]
  | _ =>
    match value.number? with
    | none => []
    | some n =>
      [("real".toList, .int n), ("imag".toList, .int 0), ("numerator".toList, .int n),
        ("denominator".toList, .int 1)]

namespace Operation

/-- The name in full. -/
def fullName (operation : Operation) : Text := operation.holder.name ++ "." ++ operation.name

/-- Where the operation is at home, if it tells; one that is built in tells of no home. -/
def home? (operation : Operation) : Option Json :=
  match operation.form with
  | .ordinaryAt => some .null
  | .written | .writtenAt => some (.string operation.holder.home)
  | _ => none

/-- Whether the operation tells which nature holds it. -/
def tellsHolder (operation : Operation) : Bool :=
  match operation.form with
  | .ordinaryAt | .written | .writtenAt => false
  | _ => true

/-- What is said about an operation: null about one that was written for its nature. -/
def note? (operation : Operation) : Option Json :=
  match operation.form with
  | .written | .writtenAt | .slotReader => some .null
  | _ => none

end Operation

namespace Spot

/-- The nature of what stands at a spot. -/
def natureOf : Spot → Nature
  | all => .settings
  | wholeSection name _ => .sectionOf name
  | value json => json.nature
  | row _ => .row
  | nature _ => .nature
  | member own => own
  | operation op => .operation op.form
  | bound op _ => .operation op.form

/-- What stands in the place of a section. -/
def ofSlot (name : SectionName) : Slot → Spot
  | .fields fields => wholeSection name fields
  | .replaced json => value json

/-- The built-in values that a nature gives to a new member: a row if it keeps all of them. -/
def givenValues (own : Nature) : Spot :=
  if own.constants.length = own.fieldNames.length then row (own.constants.map Prod.snd)
  else member .row

/-- The parts of an operation that was written for its nature, beside those of every operation. -/
def writtenParts (op : Operation) : List (Text × Spot) :=
  [("__defaults__".toList,
      if op.name = "__init__" ∧ op.holder ≠ .choices then givenValues op.holder else value .null),
    ("__kwdefaults__".toList, value .null)]

/-- The parts of an operation. -/
def operationParts (op : Operation) : List (Text × Spot) :=
  [("__name__".toList, value (.string op.name)),
    ("__qualname__".toList, value (.string op.fullName))] ++
  (op.home?.map fun home => ("__module__".toList, value home)).toList ++
  (if op.tellsHolder then [("__objclass__".toList, nature op.holder)] else []) ++
  match op.form with
  | .written | .writtenAt => writtenParts op
  | _ => []

/-- The parts of an operation at what it works on. -/
def boundParts (op : Operation) (subject : Spot) : List (Text × Spot) :=
  ("__self__".toList, subject) ::
  match op.form with
  | .writtenAt => ("__func__".toList, operation { op with form := .written }) :: operationParts op
  | _ => operationParts op

/-- What a nature tells of every member. -/
def sharedParts (own : Nature) : List (Text × Spot) :=
  match own with
  | .settings | .sectionOf _ =>
    (own.constants.map fun (key, default) => (key, value default)) ++
    [("__module__".toList, value (.string own.home)),
      ("__match_args__".toList, row (own.fieldNames.map .string)),
      ("__hash__".toList, value .null),
      ("__annotations__".toList, member .mapping),
      ("__dataclass_fields__".toList, member .mapping),
      ("__dataclass_params__".toList, member .choices)]
  | .choices =>
    [("__module__".toList, value (.string own.home)),
      ("__slots__".toList, row (sectionChoices.map fun (choice, _) => .string choice))]
  | .list | .mapping => [("__hash__".toList, value .null)]
  | _ => []

/-- The form in which an operation is met: at a subject, or at a nature where there is none. Those
of the nature as a whole are at that nature either way. -/
def ofOperation (name : Text) (definer own : Nature) (subject? : Option Spot) :
    OperationSource → Spot
  | .onNature => bound ⟨name, .ordinaryAt, own⟩ (nature own)
  | .maker => bound ⟨name, .ordinaryAt, definer⟩ (nature definer)
  | .free => bound ⟨name, .ordinaryAt, definer⟩ (value .null)
  | .reader => operation ⟨name, .reader, definer⟩
  | .slotReader => operation ⟨name, .slotReader, definer⟩
  | .basic =>
    match subject? with
    | none => operation ⟨name, .basic, definer⟩
    | some subject => bound ⟨name, .basicAt, definer⟩ subject
  | .written =>
    match subject? with
    | none => operation ⟨name, .written, definer⟩
    | some subject => bound ⟨name, .writtenAt, definer⟩ subject
  | .ordinary =>
    match subject? with
    | none => operation ⟨name, .ordinary, definer⟩
    | some (nature whole) => bound ⟨name, .ordinaryAt, whole⟩ (nature whole)
    | some subject => bound ⟨name, .ordinaryAt, own⟩ subject

/-- What a nature has under a name, met at a subject or at the nature itself: the nearest nature
that it rests on decides, and a value stored there comes before what it tells, that before an
operation. -/
def byNature? (store : SettingsStore) (own : Nature) (subject? : Option Spot) (name : Text) :
    Option Spot :=
  own.lineage.findSome? fun definer =>
    (store.ofNatures.lookup (definer, name)).map value <|>
    (sharedParts definer).lookup name <|>
    (definer.operations.lookup name).map (ofOperation name definer own subject?)

/-- The parts that a nature has as a thing of its own. -/
def natureParts (own : Nature) : List (Text × Spot) :=
  [("__name__".toList, value (.string own.name)), ("__qualname__".toList, value (.string own.name)),
    ("__module__".toList, value (.string own.home)),
    ("__base__".toList, (own.lineage.tail.head?.map nature).getD (value .null)),
    ("__bases__".toList, if own = .anything then row [] else member .row),
    ("__mro__".toList, member .row)]

/-- The part of a name that a spot has of its own and not by its nature. -/
def ownPart? (store : SettingsStore) (spot : Spot) (name : Text) : Option Spot :=
  match spot with
  | all =>
    match SectionName.ofKey? name with
    | some key => some (ofSlot key (store.current.slot key))
    | none =>
      [("__dict__".toList, member .mapping), ("__weakref__".toList, value .null)].lookup name
  | wholeSection _ fields =>
    (fields.lookup name).map value <|>
      [("__dict__".toList, value (.object fields)), ("__weakref__".toList, value .null)].lookup name
  | value json => (json.numberParts.lookup name).map value
  | row _ => none
  | nature own => (natureParts own).lookup name <|> byNature? store own none name
  | member .choices => (sectionChoices.lookup name).map value
  | member _ => none
  | operation op => (operationParts op).lookup name
  | bound op subject => (boundParts op subject).lookup name

/-- What is said about what stands at a spot. -/
def note? : Spot → Option Json
  | nature own => own.note?
  | operation op => op.note?
  | bound op _ => op.note?
  | spot => spot.natureOf.note?

/-- The part of a name at a spot. -/
def part? (store : SettingsStore) (spot : Spot) (name : Text) : Option Spot :=
  if name = "__class__" then some (nature spot.natureOf)
  else if name = "__doc__" then spot.note?.map value
  else spot.ownPart? store name <|> byNature? store spot.natureOf (some spot) name

end Spot

namespace SettingsStore

/-- What a way through the settings leads to; nothing where it leads nowhere. -/
def follow? (store : SettingsStore) (parts : List Text) : Option Spot :=
  parts.foldlM (Spot.part? store) .all

/-- What a key leads to; nothing where it leads nowhere. -/
def get? (store : SettingsStore) (key : Text) : Option Spot :=
  store.follow? (Text.splitOn '.' key)

/-- The store after a value has been stored in a field of what stands at a spot: of all settings, of
a section, or of a nature. -/
def storeAt? (store : SettingsStore) (field : Text) (value : Json) : Spot → Option SettingsStore
  | .all =>
    (SectionName.ofKey? field).map fun name =>
      { store with current := store.current.setSlot name (.replaced value) }
  | .wholeSection name fields =>
    if (fields.lookup field).isSome then
      some { store with
        current := store.current.setSlot name (.fields (Assoc.put field value fields)) }
    else none
  | .nature own =>
    if own.fieldNames.contains field then
      some { store with ofNatures := Assoc.put (own, field) value store.ofNatures }
    else none
  | _ => none

/-- Stores a value under a key, the last part of which is a field. -/
def put (key : Text) (value : Json) : SettingsOp Unit := do
  let parts := Text.splitOn '.' key
  let store ← get
  match (store.follow? parts.dropLast).bind (store.storeAt? (parts.getLast?.getD []) value) with
  | none => throw (.refused (.invalidKey key))
  | some changed => set changed

end SettingsStore

end MemShell
