import SchemaForge.Foundation.Binary64
import SchemaForge.Foundation.Strings

/-!
# Logging the body of a call

The message of every call is decoded and logged as JSON, with what is set under a
sensitive name blanked first. Decoding, JSON and the reading and setting of fields are the
work of other crates; the tree they work on and the walk over it are modelled here.
-/

namespace SchemaForge.RpcBody

inductive ScalarKind where
  | string
  | bytes
  /-- The integers of every width, and the numbers of an enumeration. -/
  | integer
  | boolean
  | double
deriving DecidableEq

inductive Scalar where
  | string (text : Str)
  | bytes (content : List UInt8)
  | integer (value : Int)
  | boolean (value : Bool)
  | double (value : F64)
deriving DecidableEq

namespace Scalar

def kind : Scalar → ScalarKind
  | string _ => .string
  | bytes _ => .bytes
  | integer _ => .integer
  | boolean _ => .boolean
  | double _ => .double

/-- The scalar is what a field holds when nothing was sent for it. -/
def isDefault : Scalar → Bool
  | string text => text.isEmpty
  | bytes content => content.isEmpty
  | integer value => value == 0
  | boolean value => !value
  | double (.finite _ magnitude) => magnitude.val == 0
  | double _ => false

end Scalar

/-- What the descriptor of a message says of a field, beside its kind. -/
structure Field where
  name : Str
  /-- A scalar field that tells a default that was sent from nothing sent. -/
  supportsPresence : Bool
deriving DecidableEq

/-- The value of a field. Its constructor is the kind and the cardinality of the field. -/
inductive Value where
  | scalar (value : Scalar)
  | scalars (kind : ScalarKind) (values : List Scalar)
  | message (fields : List (Field × Value))
  | messages (items : List (List (Field × Value)))
  | map (entries : List (Scalar × Value))

/-- A message, with the fields of its descriptor that have a value. -/
abbrev Message := List (Field × Value)

inductive Kind where
  | scalar (kind : ScalarKind)
  | scalars (kind : ScalarKind)
  | message
  | messages
  | map
deriving DecidableEq

def Value.kind : Value → Kind
  | scalar value => .scalar value.kind
  | scalars kind _ => .scalars kind
  | message _ => .message
  | messages _ => .messages
  | map _ => .map

/-- What the walk asks of the crate that reflects messages, at a field and its value. Only a set
text is promised of what a text was set in: whether a field takes one is up to its kind. -/
structure Reflection where
  /-- `DynamicMessage::has_field`. -/
  hasField : Field → Value → Bool
  /-- `DynamicMessage::try_set_field` with a string: the value of the field from then on. -/
  trySetField : Field → Value → Str → Option Value
  hasField_message : ∀ field inner, hasField field (.message inner) = true
  hasField_messages : ∀ field items, hasField field (.messages items) = !items.isEmpty
  eq_of_trySetField : ∀ {field before text value}, trySetField field before text = some value →
    value = .scalar (.string text)
  trySetField_eq_of_kind : ∀ {field value value'} text, value.kind = value'.kind →
    trySetField field value text = trySetField field value' text

attribute [simp] Reflection.hasField_message Reflection.hasField_messages

def sensitive : List Str := ["password", "token", "secret"]

def redacted : Str := "[redacted]"

def isSensitive (name : Str) : Bool := sensitive.any fun word => Str.containsStr word name

mutual

def redact (crate : Reflection) : List (Field × Value) → List (Field × Value)
  | [] => []
  | (field, value) :: rest =>
      if !crate.hasField field value then (field, value) :: redact crate rest
      else if isSensitive field.name then
        match crate.trySetField field value redacted with
        | some blank => (field, blank) :: redact crate rest
        | none => redact crate rest
      else (field, redactValue crate value) :: redact crate rest

def redactValue (crate : Reflection) : Value → Value
  | .message fields => .message (redact crate fields)
  | .messages items => .messages (redactItems crate items)
  | value => value

def redactItems (crate : Reflection) : List (List (Field × Value)) → List (List (Field × Value))
  | [] => []
  | fields :: items => redact crate fields :: redactItems crate items

end

/-- The crates, at the descriptor of one message: from the wire, and to JSON. -/
structure Codec where
  decode : List UInt8 → Except Str Message
  single : Message → Except Str Str
  many : List Message → Except Str Str

def bigEndian (a b c d : UInt8) : Nat :=
  ((a.toNat * 256 + b.toNat) * 256 + c.toNat) * 256 + d.toNat

/-- The messages of a body, a run of frames. -/
def readFrames (crate : Reflection) (codec : Codec) (body : List UInt8) :
    Except Str (List Message) :=
  match body with
  | [] => .ok []
  | flag :: a :: b :: c :: d :: rest =>
      if rest.length < bigEndian a b c d then .error "truncated message"
      else if flag ≠ 0 then .error "compressed message"
      else do
        let message ← codec.decode (rest.take (bigEndian a b c d))
        let messages ← readFrames crate codec (rest.drop (bigEndian a b c d))
        .ok (redact crate message :: messages)
  | _ => .error "truncated frame"
termination_by body.length
decreasing_by
  rw [List.length_drop]
  simp only [List.length_cons]
  omega

def render (crate : Reflection) (codec : Codec) (body : List UInt8) : Except Str Str := do
  let messages ← readFrames crate codec body
  match messages with
  | [single] => codec.single single
  | many => codec.many many

variable {crate : Reflection}

/-- What is left of the value of a field, if the field keeps one. -/
def redactField (crate : Reflection) (field : Field) (value : Value) : Option Value :=
  if !crate.hasField field value then some value
  else if isSensitive field.name then crate.trySetField field value redacted
  else some (redactValue crate value)

theorem redact_cons (field : Field) (value : Value) (rest : Message) :
    redact crate ((field, value) :: rest) =
      ((redactField crate field value).map (field, ·)).toList ++ redact crate rest := by
  rw [redact, redactField]
  split_ifs
  · rfl
  · cases crate.trySetField field value redacted with
    | none => rfl
    | some blank => rfl
  · rfl

theorem mem_redact {message : Message} {field : Field} {value : Value} :
    (field, value) ∈ redact crate message ↔ ∃ before,
    (field, before) ∈ message ∧ redactField crate field before = some value := by
  induction message with
  | nil => simp [redact]
  | cons entry rest ih =>
      rcases entry with ⟨first, before⟩
      rw [redact_cons, List.mem_append, ih]
      constructor
      · rintro (here | ⟨before, mem, same⟩)
        · rcases Option.map_eq_some_iff.mp (Option.mem_toList.mp here) with ⟨left, found, same⟩
          cases same
          exact ⟨before, List.mem_cons_self, found⟩
        · exact ⟨before, List.mem_cons_of_mem _ mem, same⟩
      · rintro ⟨before, mem, same⟩
        rcases List.mem_cons.mp mem with here | later
        · cases here
          exact Or.inl (by simp [same])
        · exact Or.inr ⟨before, later, same⟩

theorem redactItems_eq_map (items : List (List (Field × Value))) :
    redactItems crate items = items.map (redact crate) := by
  induction items with
  | nil => rfl
  | cons fields items ih => rw [redactItems, ih, List.map_cons]

/-- What a field holds inside a message, behind a path of fields and of places in them. -/
inductive Holds : Message → List (Field × Nat) → Field → Value → Prop where
  | here {message : Message} {field : Field} {value : Value} (mem : (field, value) ∈ message) :
      Holds message [] field value
  | message {message inner : Message} {outer field : Field} {path : List (Field × Nat)}
      {value : Value} (mem : (outer, .message inner) ∈ message)
      (later : Holds inner path field value) :
      Holds message ((outer, 0) :: path) field value
  | messages {message inner : Message} {items : List Message} {outer field : Field} {place : Nat}
      {path : List (Field × Nat)} {value : Value} (mem : (outer, .messages items) ∈ message)
      (item : items[place]? = some inner) (later : Holds inner path field value) :
      Holds message ((outer, place) :: path) field value
  | map {message inner : Message} {entries : List (Scalar × Value)} {outer field : Field}
      {key : Scalar} {place : Nat} {path : List (Field × Nat)} {value : Value}
      (mem : (outer, .map entries) ∈ message) (entry : entries[place]? = some (key, .message inner))
      (later : Holds inner path field value) :
      Holds message ((outer, place) :: path) field value

mutual

/-- The message has no map at any depth. -/
def isPlain : List (Field × Value) → Bool
  | [] => true
  | (_, value) :: rest => isPlainValue value && isPlain rest

def isPlainValue : Value → Bool
  | .scalar _ => true
  | .scalars _ _ => true
  | .message fields => isPlain fields
  | .messages items => arePlain items
  | .map _ => false

def arePlain : List (List (Field × Value)) → Bool
  | [] => true
  | fields :: items => isPlain fields && arePlain items

end

theorem isPlainValue_of_mem {message : Message} {field : Field} {value : Value}
    (plain : isPlain message = true)
    (mem : (field, value) ∈ message) : isPlainValue value = true := by
  induction message with
  | nil => cases mem
  | cons entry rest ih =>
      rcases entry with ⟨first, before⟩
      rw [isPlain, Bool.and_eq_true] at plain
      rcases List.mem_cons.mp mem with here | later
      · cases here
        exact plain.1
      · exact ih plain.2 later

theorem isPlain_of_mem {items : List Message} {item : Message} (plain : arePlain items = true)
    (mem : item ∈ items) : isPlain item = true := by
  induction items with
  | nil => cases mem
  | cons fields items ih =>
      rw [arePlain, Bool.and_eq_true] at plain
      rcases List.mem_cons.mp mem with rfl | later
      · exact plain.1
      · exact ih plain.2 later

/-- What is left of a field either is the text in its place, or comes of the value below it. -/
theorem redactField_cases {field : Field} {before value : Value}
    (kept : redactField crate field before = some value) :
    (crate.hasField field before = false ∧ value = before) ∨
      (isSensitive field.name = true ∧ value = .scalar (.string redacted)) ∨
      (isSensitive field.name = false ∧ value = redactValue crate before) := by
  unfold redactField at kept
  split_ifs at kept with unset secret
  · exact Or.inl ⟨by simpa using unset, (Option.some.inj kept).symm⟩
  · exact Or.inr (Or.inl ⟨secret, crate.eq_of_trySetField kept⟩)
  · exact Or.inr (Or.inr ⟨by simpa using secret, (Option.some.inj kept).symm⟩)

theorem message_of_redactValue {before : Value} {inner : Message}
    (same : .message inner = redactValue crate before) :
    ∃ fields, before = .message fields ∧ inner = redact crate fields := by
  cases before with
  | message fields =>
      rw [redactValue] at same
      exact ⟨fields, rfl, Value.message.inj same⟩
  | scalar value => cases same
  | scalars kind values => cases same
  | messages items =>
      rw [redactValue] at same
      cases same
  | map entries => cases same

theorem messages_of_redactValue {before : Value} {items : List Message}
    (same : .messages items = redactValue crate before) :
    ∃ before', before = .messages before' ∧ items = before'.map (redact crate) := by
  cases before with
  | messages before' =>
      rw [redactValue, redactItems_eq_map] at same
      exact ⟨before', rfl, Value.messages.inj same⟩
  | message fields =>
      rw [redactValue] at same
      cases same
  | scalar value => cases same
  | scalars kind values => cases same
  | map entries => cases same

theorem map_of_redactValue {before : Value} {entries : List (Scalar × Value)}
    (same : .map entries = redactValue crate before) : before = .map entries := by
  cases before with
  | map before' => exact same.symm
  | message fields =>
      rw [redactValue] at same
      cases same
  | messages items =>
      rw [redactValue] at same
      cases same
  | scalar value => cases same
  | scalars kind values => cases same

/-- What is set under a sensitive name after redaction is the text in its place. -/
theorem redacted_of_holds {message left : Message} {path : List (Field × Nat)} {field : Field}
    {value : Value}
    (plain : isPlain message = true) (holds : Holds left path field value)
    (same : left = redact crate message) (isSet : crate.hasField field value = true)
    (secret : isSensitive field.name = true) :
    value = .scalar (.string redacted) := by
  induction holds generalizing message with
  | here mem =>
      subst same
      rcases mem_redact.mp mem with ⟨before, -, kept⟩
      rcases redactField_cases kept with ⟨unset, rfl⟩ | ⟨-, blank⟩ | ⟨ordinary, -⟩
      · rw [isSet] at unset
        cases unset
      · exact blank
      · rw [secret] at ordinary
        cases ordinary
  | message mem _ ih =>
      subst same
      rcases mem_redact.mp mem with ⟨before, beforeMem, kept⟩
      rcases redactField_cases kept with ⟨unset, rfl⟩ | ⟨-, blank⟩ | ⟨-, walked⟩
      · rw [crate.hasField_message] at unset
        cases unset
      · cases blank
      · rcases message_of_redactValue walked with ⟨fields, rfl, inner⟩
        exact ih (isPlainValue_of_mem plain beforeMem) inner isSet secret
  | messages mem item _ ih =>
      subst same
      rcases mem_redact.mp mem with ⟨before, beforeMem, kept⟩
      rcases redactField_cases kept with ⟨unset, rfl⟩ | ⟨-, blank⟩ | ⟨-, walked⟩
      · have none : _ = [] := List.isEmpty_iff.mp (by simpa using unset)
        rw [none] at item
        cases item
      · cases blank
      · rcases messages_of_redactValue walked with ⟨items, rfl, inner⟩
        rw [inner, List.getElem?_map] at item
        rcases Option.map_eq_some_iff.mp item with ⟨fields, found, inner⟩
        have plainItems : arePlain items = true := isPlainValue_of_mem plain beforeMem
        exact ih (isPlain_of_mem plainItems (List.mem_of_getElem? found)) inner.symm isSet secret
  | map mem _ _ _ =>
      subst same
      rcases mem_redact.mp mem with ⟨before, beforeMem, kept⟩
      have noMap := isPlainValue_of_mem plain beforeMem
      rcases redactField_cases kept with ⟨-, rfl⟩ | ⟨-, blank⟩ | ⟨-, walked⟩
      · cases noMap
      · cases blank
      · rw [map_of_redactValue walked] at noMap
        cases noMap

def Value.isScalar : Value → Bool
  | scalar _ => true
  | scalars _ _ => true
  | _ => false

theorem redactValue_of_unset {field : Field} {value : Value}
    (unset : crate.hasField field value = false) :
    redactValue crate value = value := by
  cases value with
  | scalar value => rfl
  | scalars kind values => rfl
  | message fields =>
      rw [crate.hasField_message] at unset
      cases unset
  | messages items =>
      have none : items = [] := List.isEmpty_iff.mp (by simpa using unset)
      rw [none]
      rfl
  | map entries => rfl

theorem mem_redact_of_ordinary {message : Message} {field : Field} {value : Value}
    (ordinary : isSensitive field.name = false) :
    (field, value) ∈ redact crate message ↔ ∃ before, (field, before) ∈ message ∧
      value = redactValue crate before := by
  have left (before : Value) :
      redactField crate field before = some (redactValue crate before) := by
    unfold redactField
    split_ifs with unset secret
    · rw [redactValue_of_unset (by simpa using unset)]
    · rw [ordinary] at secret
      cases secret
    · rfl
  rw [mem_redact]
  constructor
  · rintro ⟨before, mem, kept⟩
    rw [left] at kept
    exact ⟨before, mem, (Option.some.inj kept).symm⟩
  · rintro ⟨before, mem, rfl⟩
    exact ⟨before, mem, left before⟩

theorem redactValue_eq_scalar {before value : Value} (isScalar : value.isScalar = true) :
    value = redactValue crate before ↔ before = value := by
  constructor
  · rintro rfl
    cases before with
    | message fields =>
        rw [redactValue] at isScalar
        cases isScalar
    | messages items =>
        rw [redactValue] at isScalar
        cases isScalar
    | scalar value => rfl
    | scalars kind values => rfl
    | map entries => rfl
  · rintro rfl
    cases before with
    | message fields => cases isScalar
    | messages items => cases isScalar
    | scalar value => rfl
    | scalars kind values => rfl
    | map entries => rfl

theorem holds_of_holds_redact {message left : Message} {path : List (Field × Nat)} {field : Field}
    {value : Value}
    (holds : Holds left path field value) (same : left = redact crate message)
    (ordinary : ∀ step ∈ path, isSensitive step.1.name = false)
    (name : isSensitive field.name = false) (isScalar : value.isScalar = true) :
    Holds message path field value := by
  induction holds generalizing message with
  | here mem =>
      subst same
      rcases (mem_redact_of_ordinary name).mp mem with ⟨before, beforeMem, walked⟩
      rw [(redactValue_eq_scalar isScalar).mp walked] at beforeMem
      exact .here beforeMem
  | message mem _ ih =>
      subst same
      rcases List.forall_mem_cons.mp ordinary with ⟨outer, ordinary⟩
      rcases (mem_redact_of_ordinary outer).mp mem with ⟨before, beforeMem, walked⟩
      rcases message_of_redactValue walked with ⟨fields, rfl, inner⟩
      exact .message beforeMem (ih inner ordinary name isScalar)
  | messages mem item _ ih =>
      subst same
      rcases List.forall_mem_cons.mp ordinary with ⟨outer, ordinary⟩
      rcases (mem_redact_of_ordinary outer).mp mem with ⟨before, beforeMem, walked⟩
      rcases messages_of_redactValue walked with ⟨items, rfl, inner⟩
      rw [inner, List.getElem?_map] at item
      rcases Option.map_eq_some_iff.mp item with ⟨fields, found, inner⟩
      exact .messages beforeMem found (ih inner.symm ordinary name isScalar)
  | map mem entry later _ =>
      subst same
      rcases List.forall_mem_cons.mp ordinary with ⟨outer, ordinary⟩
      rcases (mem_redact_of_ordinary outer).mp mem with ⟨before, beforeMem, walked⟩
      rw [map_of_redactValue walked] at beforeMem
      exact .map beforeMem entry later

theorem holds_redact_of_holds {message : Message} {path : List (Field × Nat)} {field : Field}
    {value : Value}
    (holds : Holds message path field value)
    (ordinary : ∀ step ∈ path, isSensitive step.1.name = false)
    (name : isSensitive field.name = false) (isScalar : value.isScalar = true) :
    Holds (redact crate message) path field value := by
  induction holds with
  | here mem =>
      exact .here
        ((mem_redact_of_ordinary name).mpr ⟨_, mem, (redactValue_eq_scalar isScalar).mpr rfl⟩)
  | message mem _ ih =>
      rcases List.forall_mem_cons.mp ordinary with ⟨outer, ordinary⟩
      exact .message ((mem_redact_of_ordinary outer).mpr ⟨_, mem, by rw [redactValue]⟩)
        (ih ordinary name isScalar)
  | messages mem item _ ih =>
      rcases List.forall_mem_cons.mp ordinary with ⟨outer, ordinary⟩
      have walked := (@mem_redact_of_ordinary crate _ _ _ outer).mpr
        ⟨_, mem, by rw [redactValue, redactItems_eq_map]⟩
      exact .messages walked (by rw [List.getElem?_map, item, Option.map_some])
        (ih ordinary name isScalar)
  | map mem entry later _ =>
      rcases List.forall_mem_cons.mp ordinary with ⟨outer, ordinary⟩
      exact .map ((mem_redact_of_ordinary outer).mpr ⟨_, mem, rfl⟩) entry later

mutual

/--
The messages differ in nothing but what is set under sensitive names, in both of them and of one
kind.
-/
inductive Alike (crate : Reflection) : List (Field × Value) → List (Field × Value) → Prop where
  | nil : Alike crate [] []
  | secret {field : Field} {value value' : Value} {rest rest' : List (Field × Value)}
      (name : isSensitive field.name = true) (isSet : crate.hasField field value = true)
      (isSet' : crate.hasField field value' = true) (kind : value.kind = value'.kind)
      (later : Alike crate rest rest') :
      Alike crate ((field, value) :: rest) ((field, value') :: rest')
  | kept {field : Field} {value value' : Value} {rest rest' : List (Field × Value)}
      (values : AlikeValue crate value value') (later : Alike crate rest rest') :
      Alike crate ((field, value) :: rest) ((field, value') :: rest')

inductive AlikeValue (crate : Reflection) : Value → Value → Prop where
  | same (value : Value) : AlikeValue crate value value
  | message {fields fields' : List (Field × Value)} (inner : Alike crate fields fields') :
      AlikeValue crate (.message fields) (.message fields')
  | messages {items items' : List (List (Field × Value))} (inner : AlikeItems crate items items') :
      AlikeValue crate (.messages items) (.messages items')

inductive AlikeItems (crate : Reflection) : List (List (Field × Value)) →
    List (List (Field × Value)) → Prop where
  | nil : AlikeItems crate [] []
  | cons {fields fields' : List (Field × Value)} {items items' : List (List (Field × Value))}
      (first : Alike crate fields fields') (later : AlikeItems crate items items') :
      AlikeItems crate (fields :: items) (fields' :: items')

end

theorem AlikeValue.hasField_eq {value value' : Value} (alike : AlikeValue crate value value')
    (field : Field) :
    crate.hasField field value = crate.hasField field value' := by
  cases alike with
  | same => rfl
  | message _ => rw [crate.hasField_message, crate.hasField_message]
  | messages inner =>
      cases inner with
      | nil => rfl
      | cons _ _ =>
          rw [crate.hasField_messages, crate.hasField_messages, List.isEmpty_cons,
            List.isEmpty_cons]

theorem AlikeValue.kind_eq {value value' : Value} (alike : AlikeValue crate value value') :
    value.kind = value'.kind := by
  cases alike with
  | same => rfl
  | message _ => rfl
  | messages _ => rfl

mutual

theorem redact_eq_of_alike {message message' : List (Field × Value)}
    (alike : Alike crate message message') :
    redact crate message = redact crate message' := by
  cases alike with
  | nil => rfl
  | @secret field value value' _ _ name isSet isSet' kind later =>
      have left : redactField crate field value = redactField crate field value' := by
        rw [redactField, redactField, isSet, isSet', name, crate.trySetField_eq_of_kind _ kind]
        rfl
      rw [redact_cons, redact_cons, left, redact_eq_of_alike later]
  | @kept field value value' _ _ values later =>
      have walked := redactValue_eq_of_alike values
      have left : redactField crate field value = redactField crate field value' := by
        rw [redactField, redactField, values.hasField_eq,
          crate.trySetField_eq_of_kind _ values.kind_eq, walked]
        split_ifs with unset secret
        · have unset' : crate.hasField field value' = false := by simpa using unset
          rw [redactValue_of_unset unset',
            redactValue_of_unset ((values.hasField_eq field).trans unset')] at walked
          rw [walked]
        · rfl
        · rfl
      rw [redact_cons, redact_cons, left, redact_eq_of_alike later]

theorem redactValue_eq_of_alike {value value' : Value} (alike : AlikeValue crate value value') :
    redactValue crate value = redactValue crate value' := by
  cases alike with
  | same => rfl
  | message inner => rw [redactValue, redactValue, redact_eq_of_alike inner]
  | messages inner => rw [redactValue, redactValue, redactItems_eq_of_alike inner]

theorem redactItems_eq_of_alike {items items' : List (List (Field × Value))}
    (alike : AlikeItems crate items items') :
    redactItems crate items = redactItems crate items' := by
  cases alike with
  | nil => rfl
  | cons first later =>
      rw [redactItems, redactItems, redact_eq_of_alike first, redactItems_eq_of_alike later]

end

/-- The body is a run of frames that carry these messages. -/
inductive Carries (codec : Codec) : List UInt8 → List Message → Prop where
  | nil : Carries codec [] []
  | frame {a b c d : UInt8} {payload rest : List UInt8} {message : Message}
      {messages : List Message} (sized : payload.length = bigEndian a b c d)
      (decoded : codec.decode payload = .ok message) (later : Carries codec rest messages) :
      Carries codec (0 :: a :: b :: c :: d :: (payload ++ rest)) (message :: messages)

theorem readFrames_of_carries {codec : Codec} {body : List UInt8} {messages : List Message}
    (carries : Carries codec body messages) :
    readFrames crate codec body = .ok (messages.map (redact crate)) := by
  induction carries with
  | nil => rw [readFrames, List.map_nil]
  | @frame a b c d payload rest message messages sized decoded _ ih =>
      have enough : ¬(payload ++ rest).length < bigEndian a b c d := by
        rw [List.length_append, sized]
        omega
      rw [readFrames, if_neg enough, if_neg (fun flag => flag rfl), ← sized, List.take_left,
        List.drop_left, decoded, ih]
      rfl

theorem map_redact_of_alike {messages messages' : List Message}
    (alike : List.Forall₂ (Alike crate) messages messages') :
    messages.map (redact crate) = messages'.map (redact crate) := by
  induction alike with
  | nil => rfl
  | cons first _ ih => rw [List.map_cons, List.map_cons, redact_eq_of_alike first, ih]

/-- Secrets never reach the log line. -/
theorem redact_correct {message : Message} (plain : isPlain message = true) :
    (∀ path field value, Holds (redact crate message) path field value →
      crate.hasField field value = true →
      isSensitive field.name = true → value = .scalar (.string redacted)) ∧
    (∀ path field value, (∀ step ∈ path, isSensitive step.1.name = false) →
      isSensitive field.name = false →
      value.isScalar = true →
        (Holds (redact crate message) path field value ↔ Holds message path field value)) ∧
    (∀ (codec : Codec) body body' messages messages', Carries codec body messages →
      Carries codec body' messages' →
      List.Forall₂ (Alike crate) messages messages' → render crate codec body =
        render crate codec body') := by
  refine ⟨?_, ?_, ?_⟩
  · intro path field value holds isSet secret
    exact redacted_of_holds plain holds rfl isSet secret
  · intro path field value ordinary name isScalar
    constructor
    · intro holds
      exact holds_of_holds_redact holds rfl ordinary name isScalar
    · intro holds
      exact holds_redact_of_holds holds ordinary name isScalar
  · intro codec body body' messages messages' carries carries' alike
    rw [render, render, readFrames_of_carries carries, readFrames_of_carries carries',
      map_redact_of_alike alike]

/-! A login, as its test has it. -/

/-- The reflection of a message whose lists are set when they hold something, and whose texts
are set when they are not empty or can be told from nothing sent. -/
def loginReflection : Reflection where
  hasField field
    | .scalar value => field.supportsPresence || !value.isDefault
    | .scalars _ values => !values.isEmpty
    | .message _ => true
    | .messages items => !items.isEmpty
    | .map entries => !entries.isEmpty
  trySetField _ value text :=
    if value.kind = .scalar .string then some (.scalar (.string text)) else none
  hasField_message _ _ := rfl
  hasField_messages _ _ := rfl
  eq_of_trySetField := by
    intro _ _ _ _ accepted
    split at accepted
    · exact (Option.some.inj accepted).symm
    · cases accepted
  trySetField_eq_of_kind := by
    intro _ _ _ _ kind
    rw [kind]

def loginRequest (email password : Str) : Message :=
  [(⟨"email", false⟩, .scalar (.string email)), (⟨"password", false⟩, .scalar (.string password))]

/-- The wire format and the JSON of a login with two short texts. -/
def loginCodec : Codec where
  decode payload :=
    let text (bytes : List UInt8) : Str := bytes.map fun byte => Char.ofNat byte.toNat
    match payload with
    | 10 :: count :: rest =>
        match rest.drop count.toNat with
        | 18 :: _ :: password => .ok (loginRequest (text (rest.take count.toNat)) (text password))
        | _ => .error "failed to decode Protobuf message"
    | _ => .error "failed to decode Protobuf message"
  single message :=
    let member : Field × Value → Str
      | (field, .scalar (.string text)) => "\"" ++ field.name ++ "\":\"" ++ text ++ "\""
      | (field, _) => "\"" ++ field.name ++ "\":null"
    .ok ("\x7b" ++ Str.join "," (message.map member) ++ "\x7d")
  many _ := .ok "[]"

theorem carries_login (last : UInt8) (text : Char) (same : Char.ofNat last.toNat = text) :
    Carries loginCodec [0, 0, 0, 0, 12, 10, 5, 97, 64, 98, 46, 99, 18, 3, 112, 119, last]
      [loginRequest "a@b.c" ['p', 'w', text]] := by
  subst same
  have sized : [10, 5, 97, 64, 98, 46, 99, 18, 3, 112, 119, last].length = bigEndian 0 0 0 12 := by
    have length : bigEndian 0 0 0 12 = 12 := by decide
    rw [length]
    rfl
  have decoded : loginCodec.decode [10, 5, 97, 64, 98, 46, 99, 18, 3, 112, 119, last] =
      .ok (loginRequest "a@b.c" ['p', 'w', Char.ofNat last.toNat]) := by rfl
  exact .frame sized decoded .nil

theorem redact_correct_login :
    ¬Holds (redact loginReflection (loginRequest "a@b.c" "pw1")) [] ⟨"password", false⟩
      (.scalar (.string "pw1")) ∧
      Holds (redact loginReflection (loginRequest "a@b.c" "pw1")) [] ⟨"email", false⟩
        (.scalar (.string "a@b.c")) ∧
      render loginReflection loginCodec [0, 0, 0, 0, 12, 10, 5, 97, 64, 98, 46, 99, 18, 3,
        112, 119, 49] =
        render loginReflection loginCodec [0, 0, 0, 0, 12, 10, 5, 97, 64, 98, 46, 99, 18, 3, 112,
          119, 50] := by
  have correct :=
    @redact_correct loginReflection _ (show isPlain (loginRequest "a@b.c" "pw1") = true from rfl)
  refine ⟨?_, ?_, ?_⟩
  · intro kept
    have blank := correct.1 _ _ _ kept rfl (by decide)
    exact absurd (Scalar.string.inj (Value.scalar.inj blank)) (by decide)
  · exact (correct.2.1 [] _ _ (fun _ mem => by cases mem) (by decide) rfl).mpr
      (.here List.mem_cons_self)
  · have secret : isSensitive "password" = true := by decide
    have alike : Alike loginReflection (loginRequest "a@b.c" ['p', 'w', '1'])
        (loginRequest "a@b.c" ['p', 'w', '2']) :=
      .kept (.same _) (.secret secret rfl rfl rfl .nil)
    exact correct.2.2 loginCodec _ _ _ _ (carries_login 49 '1' rfl) (carries_login 50 '2' rfl)
      (.cons alike .nil)

end SchemaForge.RpcBody
