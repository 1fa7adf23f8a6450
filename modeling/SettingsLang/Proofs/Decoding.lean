import SettingsLang.Proofs.DistinctKeys
import SettingsLang.Proofs.Outcome

/-!
Decoding accepts the grammar. A table and an array are read alike: what is given for the fields is
gone through pair by pair, each pair fills its own field, and the block is built when all pairs have
been read. As no field is given twice, the order of the pairs only decides which fault is reported.
-/

namespace SettingsLang

open Toml (Value Misfit Encodes EncodesAll FieldGiven EncodesDocument mem_of_lookup
  lookup_eq_none_of_notMem lookup_cons_of_ne)

/-- What a field of a block holds. -/
@[reducible] def BlockField.Content : BlockField → Type
  | .name | .criterion | .matcher | .parameter => String
  | .body => List Block
  | .value => Scalar

theorem BlockField.key_injective : Function.Injective BlockField.key := by
  intro first second h
  cases first <;> cases second <;> simp_all [key]

namespace BlockFields

def get (fields : BlockFields) : (field : BlockField) → Option field.Content
  | .name => fields.name
  | .body => fields.body
  | .criterion => fields.criterion
  | .matcher => fields.matcher
  | .parameter => fields.parameter
  | .value => fields.value

def put (fields : BlockFields) : (field : BlockField) → field.Content → BlockFields
  | .name, name => { fields with name := some name }
  | .body, body => { fields with body := some body }
  | .criterion, criterion => { fields with criterion := some criterion }
  | .matcher, symbol => { fields with matcher := some symbol }
  | .parameter, parameter => { fields with parameter := some parameter }
  | .value, value => { fields with value := some value }

theorem get_none (field : BlockField) : BlockFields.none.get field = .none := by
  cases field <;> rfl

theorem get_put_self (fields : BlockFields) (field : BlockField) (content : field.Content) :
    (fields.put field content).get field = some content := by
  cases field <;> rfl

theorem get_put_of_ne (fields : BlockFields) {field other : BlockField} (content : field.Content)
    (h : other ≠ field) : (fields.put field content).get other = fields.get other := by
  cases field <;> cases other <;> simp_all [put, get]

theorem eq_of_get_eq {first second : BlockFields}
    (h : ∀ field, first.get field = second.get field) : first = second := by
  cases first
  cases second
  have hname := h .name
  have hbody := h .body
  have hcriterion := h .criterion
  have hmatcher := h .matcher
  have hparameter := h .parameter
  have hvalue := h .value
  simp_all [get]

theorem need_eq_ok_iff {α : Type} {field : BlockField} {given : Option α} {value : α} :
    need field given = .ok value ↔ given = some value := by
  cases given <;> simp [need]

end BlockFields

namespace Block

theorem textOf_eq_ok_iff {value : Value} {text : String} :
    textOf value = .ok text ↔ value = .text text := by
  cases value <;> simp [textOf]

theorem scalarOf_eq_ok_iff {value : Value} {scalar : Scalar} :
    scalarOf value = .ok scalar ↔ value.IsScalar scalar := by
  constructor
  · intro h
    cases value <;> cases h <;> constructor
  · rintro ⟨⟩ <;> rfl

theorem ofKeyword?_eq_some_iff {text : String} {kind : BlockKind} :
    BlockKind.ofKeyword? text = some kind ↔ text = kind.keyword := by
  constructor
  · intro h
    have hkeyword := List.find?_some h
    exact (eq_of_beq hkeyword).symm
  · rintro rfl
    cases kind with
    | space level => cases level <;> decide
    | rule | set | component | confType => decide

theorem kindOf_eq_ok_iff {value : Value} {kind : BlockKind} :
    kindOf value = .ok kind ↔ value = .text kind.keyword := by
  cases value with
  | text text =>
      rw [Value.text.injEq, ← ofKeyword?_eq_some_iff, kindOf]
      cases BlockKind.ofKeyword? text <;> simp
  | integer _ | float _ | boolean _ | datetime _ | array _ | table _ => simp [kindOf]

/-- What a value says of a field. -/
def contentOf : (field : BlockField) → Value → Except Misfit field.Content
  | .name, value | .criterion, value | .matcher, value | .parameter, value => textOf value
  | .body, .array items => ofItems items
  | .body, value => .error (.ofValue value "a sequence")
  | .value, value => scalarOf value

theorem contentOf_body_eq_ok_iff {value : Value} {blocks : List Block} :
    contentOf .body value = .ok blocks ↔
      ∃ items, value = .array items ∧ ofItems items = .ok blocks := by
  constructor
  · intro h
    cases value with
    | array items => exact ⟨items, rfl, h⟩
    | text _ | integer _ | float _ | boolean _ | datetime _ | table _ => cases h
  · rintro ⟨items, rfl, h⟩
    exact h

theorem readField_eq (fields : BlockFields) (field : BlockField) (value : Value) :
    readField fields field value = (contentOf field value).map (fields.put field) := by
  cases field <;> cases value <;> simp [readField, contentOf, textOf, scalarOf] <;> rfl

/-- Reads what is given for fields, pair by pair. -/
def readPairs (fields : BlockFields) (pairs : List (BlockField × Value)) :
    Except Misfit BlockFields :=
  pairs.foldlM (fun fields pair => readField fields pair.1 pair.2) fields

/-- The fields after pairs have been read hold what was given for them, and what they held before
where nothing was given. -/
def ReadFrom (pairs : List (BlockField × Value)) (fields after : BlockFields) : Prop :=
  ∀ field,
    match pairs.lookup field with
    | none => after.get field = fields.get field
    | some value => ∃ content, contentOf field value = .ok content ∧ after.get field = some content

theorem readPairs_cons {fields after : BlockFields} {field : BlockField} {value : Value}
    {rest : List (BlockField × Value)} :
    readPairs fields ((field, value) :: rest) = .ok after ↔
      ∃ content, contentOf field value = .ok content ∧
        readPairs (fields.put field content) rest = .ok after := by
  simp only [readPairs, List.foldlM_cons, bind_eq_ok_iff, readField_eq, map_eq_ok_iff]
  constructor
  · rintro ⟨_, ⟨content, hcontent, rfl⟩, hrest⟩
    exact ⟨content, hcontent, hrest⟩
  · rintro ⟨content, hcontent, hrest⟩
    exact ⟨_, ⟨content, hcontent, rfl⟩, hrest⟩

theorem readPairs_eq_ok_iff {pairs : List (BlockField × Value)}
    (hnodup : (pairs.map (·.1)).Nodup) (fields after : BlockFields) :
    readPairs fields pairs = .ok after ↔ ReadFrom pairs fields after := by
  induction pairs generalizing fields with
  | nil =>
      simp only [readPairs, List.foldlM_nil, pure, Except.pure, Except.ok.injEq, ReadFrom,
        List.lookup_nil]
      constructor
      · rintro rfl field
        rfl
      · exact fun h => BlockFields.eq_of_get_eq fun field => (h field).symm
  | cons pair rest ih =>
      obtain ⟨field, value⟩ := pair
      obtain ⟨hnew, hrest⟩ := List.nodup_cons.mp hnodup
      have habsent : rest.lookup field = none := lookup_eq_none_of_notMem hnew
      rw [readPairs_cons]
      simp only [ih hrest]
      constructor
      · rintro ⟨content, hcontent, hread⟩ other
        have hother := hread other
        by_cases hsame : other = field
        · subst hsame
          rw [habsent] at hother
          rw [List.lookup_cons_self]
          exact ⟨content, hcontent, hother.trans (fields.get_put_self _ content)⟩
        · rw [lookup_cons_of_ne hsame]
          rwa [fields.get_put_of_ne content hsame] at hother
      · intro hread
        have hfield := hread field
        rw [List.lookup_cons_self] at hfield
        obtain ⟨content, hcontent, hget⟩ := hfield
        refine ⟨content, hcontent, fun other => ?_⟩
        have hother := hread other
        by_cases hsame : other = field
        · subst hsame
          rw [habsent]
          exact hget.trans (fields.get_put_self _ content).symm
        · rw [lookup_cons_of_ne hsame] at hother
          rwa [fields.get_put_of_ne content hsame]

/-- What the entries of a table give for the fields of a kind, in order. -/
def fieldPairs (kind : BlockKind) (entries : List (String × Value)) : List (BlockField × Value) :=
  entries.filterMap fun entry => (kind.fields.find? (·.key == entry.1)).map (·, entry.2)

section

variable {kind : BlockKind} {key : String} {field : BlockField}

theorem fieldPairs_cons_none (h : kind.fields.find? (·.key == key) = none) (value : Value)
    (rest : List (String × Value)) :
    fieldPairs kind ((key, value) :: rest) = fieldPairs kind rest := by
  simp [fieldPairs, h]

theorem fieldPairs_cons_some (h : kind.fields.find? (·.key == key) = some field) (value : Value)
    (rest : List (String × Value)) :
    fieldPairs kind ((key, value) :: rest) = (field, value) :: fieldPairs kind rest := by
  simp [fieldPairs, h]

end

theorem fieldsOfEntries_eq (kind : BlockKind) (fields : BlockFields)
    (entries : List (String × Value)) :
    fieldsOfEntries kind fields entries = readPairs fields (fieldPairs kind entries) := by
  induction entries generalizing fields with
  | nil => rw [fieldsOfEntries]; rfl
  | cons entry rest ih =>
      obtain ⟨key, value⟩ := entry
      rw [fieldsOfEntries]
      cases hfield : kind.fields.find? (·.key == key) with
      | none => rw [fieldPairs_cons_none hfield, ← ih]
      | some field => simp [fieldPairs_cons_some hfield, readPairs, ih]

theorem fieldsOfItems_eq (fields : BlockFields) (names : List BlockField) (items : List Value) :
    fieldsOfItems fields names items = readPairs fields (names.zip items) := by
  induction names generalizing fields items with
  | nil => simp [fieldsOfItems, readPairs, pure, Except.pure]
  | cons field others ih =>
      cases items with
      | nil => simp [fieldsOfItems, readPairs, pure, Except.pure]
      | cons item rest => simp [fieldsOfItems, readPairs, ih]

theorem find?_key_eq_some_iff {kind : BlockKind} {key : String} {field : BlockField} :
    kind.fields.find? (·.key == key) = some field ↔ field ∈ kind.fields ∧ field.key = key := by
  constructor
  · intro h
    have hkey := List.find?_some h
    exact ⟨List.mem_of_find?_eq_some h, eq_of_beq hkey⟩
  · rintro ⟨hmem, rfl⟩
    cases hfound : kind.fields.find? (·.key == field.key) with
    | none => exact absurd (beq_self_eq_true _) (List.find?_eq_none.mp hfound field hmem)
    | some other =>
        have hkey := List.find?_some hfound
        rw [BlockField.key_injective (eq_of_beq hkey)]

/-- A table gives for a field what stands under the field's key. -/
theorem lookup_fieldPairs (kind : BlockKind) (entries : List (String × Value))
    (field : BlockField) :
    (fieldPairs kind entries).lookup field =
      if field ∈ kind.fields then entries.lookup field.key else none := by
  induction entries with
  | nil => simp [fieldPairs]
  | cons entry rest ih =>
      obtain ⟨key, value⟩ := entry
      cases hfound : kind.fields.find? (·.key == key) with
      | none =>
          rw [fieldPairs_cons_none hfound, ih]
          split
          · next hmem =>
              have hkey : field.key ≠ key := by
                rintro rfl
                rw [find?_key_eq_some_iff.mpr ⟨hmem, rfl⟩] at hfound
                cases hfound
              rw [lookup_cons_of_ne hkey]
          · rfl
      | some found =>
          obtain ⟨hmem, rfl⟩ := find?_key_eq_some_iff.mp hfound
          rw [fieldPairs_cons_some hfound]
          by_cases hsame : field = found
          · subst hsame
            simp [hmem]
          · have hkey : field.key ≠ found.key := fun h => hsame (BlockField.key_injective h)
            rw [lookup_cons_of_ne hsame, lookup_cons_of_ne hkey, ih]

theorem mem_keys_of_mem_fieldPairs {kind : BlockKind} {entries : List (String × Value)}
    {field : BlockField} (h : field ∈ (fieldPairs kind entries).map (·.1)) :
    field.key ∈ entries.map (·.1) := by
  obtain ⟨pair, hpair, rfl⟩ := List.mem_map.mp h
  obtain ⟨entry, hentry, hfound⟩ := List.mem_filterMap.mp hpair
  obtain ⟨field, hfield, rfl⟩ := Option.map_eq_some_iff.mp hfound
  rw [(find?_key_eq_some_iff.mp hfield).2]
  exact List.mem_map_of_mem hentry

theorem nodup_fieldPairs (kind : BlockKind) {entries : List (String × Value)}
    (h : (entries.map (·.1)).Nodup) : ((fieldPairs kind entries).map (·.1)).Nodup := by
  induction entries with
  | nil => simp [fieldPairs]
  | cons entry rest ih =>
      obtain ⟨key, value⟩ := entry
      obtain ⟨hkey, hrest⟩ := List.nodup_cons.mp h
      cases hfound : kind.fields.find? (·.key == key) with
      | none =>
          rw [fieldPairs_cons_none hfound]
          exact ih hrest
      | some found =>
          obtain ⟨-, rfl⟩ := find?_key_eq_some_iff.mp hfound
          rw [fieldPairs_cons_some hfound]
          exact List.nodup_cons.mpr ⟨fun h => hkey (mem_keys_of_mem_fieldPairs h), ih hrest⟩

theorem nodup_fields (kind : BlockKind) : kind.fields.Nodup := by
  cases kind with
  | space level => simp [BlockKind.fields]
  | rule | set | component | confType => decide

/-- What has been read of a field is what was given for it. -/
def Tells (field : BlockField) (given : Option Value) (content : Option field.Content) : Prop :=
  match given with
  | none => content = none
  | some value => ∃ told, contentOf field value = .ok told ∧ content = some told

theorem readFrom_none_iff {pairs : List (BlockField × Value)} {fields : BlockFields} :
    ReadFrom pairs .none fields ↔ ∀ field, Tells field (pairs.lookup field) (fields.get field) := by
  refine forall_congr' fun field => ?_
  cases hlookup : pairs.lookup field <;> simp [Tells, BlockFields.get_none]

/-- What a block holds of a field, if its kind has the field. -/
def content? : Block → (field : BlockField) → Option field.Content
  | .space _ name _, .name | .component name, .name | .confType name, .name => some name
  | .space _ _ body, .body => some body
  | .rule criterion _ _, .criterion => some criterion
  | .rule _ symbol _, .matcher => some symbol
  | .rule _ _ value, .value | .set _ value, .value => some value
  | .set parameter _, .parameter => some parameter
  | _, _ => none

/-- What has been read of a field is what a block holds of it; an empty body need not be read. -/
def Shows (block : Block) (field : BlockField) : Option field.Content → Prop
  | some content => block.content? field = some content
  | none => field = .body ∧ block.content? .body = some []

theorem shows_body_iff {block : Block} {read : Option (List Block)} :
    block.Shows .body read ↔ block.content? .body = some (read.getD []) := by
  cases read <;> simp [Shows]

theorem shows_iff_of_ne_body {block : Block} {field : BlockField} {read : Option field.Content}
    (h : field ≠ .body) :
    block.Shows field read ↔
      ∃ content, read = some content ∧ block.content? field = some content := by
  cases read <;> simp [Shows, h]

theorem build_eq_ok_iff {fields : BlockFields} {kind : BlockKind} {block : Block} :
    fields.build kind = .ok block ↔
      block.kind = kind ∧ ∀ field ∈ kind.fields, block.Shows field (fields.get field) := by
  -- only where the kinds agree is something left: the fields that are needed are those of the block
  cases kind <;> cases block <;> rw [BlockFields.build]
  all_goals
    simp only [bind_eq_ok_iff, BlockFields.need_eq_ok_iff, kind, BlockKind.fields,
      List.forall_mem_cons, shows_body_iff, shows_iff_of_ne_body, ne_eq,
      reduceCtorEq, not_false_eq_true, content?, BlockFields.get, pure, Except.pure]
    grind

theorem given_none_iff {block : Block} {field : BlockField} :
    FieldGiven block field none ↔ field = .body ∧ block.content? .body = some [] := by
  constructor
  · rintro ⟨⟩
    exact ⟨rfl, rfl⟩
  · rintro ⟨rfl, hbody⟩
    cases block with
    | space level name body =>
        cases hbody
        exact .noBody
    | rule _ _ _ | set _ _ | component _ | confType _ => cases hbody

theorem given_some_iff {block : Block} {field : BlockField} {value : Value}
    (hbody : ∀ items, field = .body → value = .array items → ∀ blocks,
      ofItems items = .ok blocks ↔ EncodesAll items blocks) :
    FieldGiven block field (some value) ↔
      ∃ content, contentOf field value = .ok content ∧ block.content? field = some content := by
  constructor
  · rintro ⟨⟩ 
    case body level name body items hblocks =>
      exact ⟨body, (hbody items rfl rfl body).mpr hblocks, rfl⟩
    case ruleValue criterion symbol scalar hscalar =>
      exact ⟨scalar, scalarOf_eq_ok_iff.mpr hscalar, rfl⟩
    case setValue parameter scalar hscalar =>
      exact ⟨scalar, scalarOf_eq_ok_iff.mpr hscalar, rfl⟩
    all_goals exact ⟨_, rfl, rfl⟩
  · rintro ⟨content, hcontent, hholds⟩
    cases block <;> cases field <;> cases hholds
    case mpr.space.name.refl => exact textOf_eq_ok_iff.mp hcontent ▸ .name
    case mpr.space.body.refl =>
      obtain ⟨items, rfl, hitems⟩ := contentOf_body_eq_ok_iff.mp hcontent
      exact .body ((hbody items rfl rfl _).mp hitems)
    case mpr.rule.criterion.refl => exact textOf_eq_ok_iff.mp hcontent ▸ .criterion
    case mpr.rule.matcher.refl => exact textOf_eq_ok_iff.mp hcontent ▸ .matcher
    case mpr.rule.value.refl => exact .ruleValue (scalarOf_eq_ok_iff.mp hcontent)
    case mpr.set.parameter.refl => exact textOf_eq_ok_iff.mp hcontent ▸ .parameter
    case mpr.set.value.refl => exact .setValue (scalarOf_eq_ok_iff.mp hcontent)
    case mpr.component.name.refl => exact textOf_eq_ok_iff.mp hcontent ▸ .componentName
    case mpr.confType.name.refl => exact textOf_eq_ok_iff.mp hcontent ▸ .confTypeName

theorem given_iff_shows {block : Block} {field : BlockField} {given : Option Value}
    {read : Option field.Content} (htells : Tells field given read)
    (hbody : ∀ items, field = .body → given = some (.array items) → ∀ blocks,
      ofItems items = .ok blocks ↔ EncodesAll items blocks) :
    FieldGiven block field given ↔ block.Shows field read := by
  cases given with
  | none =>
      obtain rfl : read = none := htells
      exact given_none_iff
  | some value =>
      obtain ⟨told, htold, rfl⟩ := htells
      rw [given_some_iff fun items hfield hvalue => hbody items hfield (congrArg some hvalue)]
      simp [htold, Shows]

theorem exists_readFrom_iff {pairs : List (BlockField × Value)} :
    (∃ fields, ReadFrom pairs .none fields) ↔
      ∀ field, ∃ read, Tells field (pairs.lookup field) read := by
  simp only [readFrom_none_iff]
  constructor
  · rintro ⟨fields, hfields⟩ field
    exact ⟨_, hfields field⟩
  · intro h
    obtain ⟨name, hname⟩ := h .name
    obtain ⟨body, hbody⟩ := h .body
    obtain ⟨criterion, hcriterion⟩ := h .criterion
    obtain ⟨symbol, hsymbol⟩ := h .matcher
    obtain ⟨parameter, hparameter⟩ := h .parameter
    obtain ⟨value, hvalue⟩ := h .value
    refine ⟨⟨name, body, criterion, symbol, parameter, value⟩, fun field => ?_⟩
    cases field <;> assumption

/-- Reading what is given for the fields of a kind builds the blocks for which it is given. -/
theorem readFrom_build_iff (pairs : List (BlockField × Value)) (kind : BlockKind) (block : Block)
    (hoff : ∀ field, field ∉ kind.fields → pairs.lookup field = none)
    (hbody : ∀ items, pairs.lookup .body = some (.array items) → ∀ blocks,
      ofItems items = .ok blocks ↔ EncodesAll items blocks) :
    (∃ fields, ReadFrom pairs .none fields ∧ fields.build kind = .ok block) ↔
      block.kind = kind ∧ ∀ field ∈ kind.fields, FieldGiven block field (pairs.lookup field) := by
  have hgiven (fields : BlockFields) (hread : ReadFrom pairs .none fields) (field : BlockField) :
      FieldGiven block field (pairs.lookup field) ↔ block.Shows field (fields.get field) := by
    refine given_iff_shows (readFrom_none_iff.mp hread field) ?_
    rintro items rfl
    exact hbody items
  simp only [build_eq_ok_iff]
  constructor
  · rintro ⟨fields, hread, hkind, hshows⟩
    exact ⟨hkind, fun field hfield => (hgiven fields hread field).mpr (hshows field hfield)⟩
  · rintro ⟨hkind, hall⟩
    have htold (field : BlockField) : ∃ read, Tells field (pairs.lookup field) read := by
      cases hlookup : pairs.lookup field with
      | none => exact ⟨none, rfl⟩
      | some value =>
          have hmem : field ∈ kind.fields := by
            refine Decidable.byContradiction fun hnot => ?_
            rw [hoff field hnot] at hlookup
            cases hlookup
          have hvalue := hall field hmem
          rw [hlookup] at hvalue
          obtain ⟨content, hcontent, -⟩ := (given_some_iff (by
            rintro items rfl rfl
            exact hbody items hlookup)).mp hvalue
          exact ⟨some content, content, hcontent, rfl⟩
    obtain ⟨fields, hread⟩ := exists_readFrom_iff.mpr htold
    exact ⟨fields, hread, hkind, fun field hfield =>
      (hgiven fields hread field).mp (hall field hfield)⟩

theorem lookup_fieldPairs_of_notMem {kind : BlockKind} {entries : List (String × Value)}
    {field : BlockField} (h : field ∉ kind.fields) :
    (fieldPairs kind entries).lookup field = none := by
  rw [lookup_fieldPairs, if_neg h]

theorem lookup_zip_of_notMem {names : List BlockField} {items : List Value} {field : BlockField}
    (h : field ∉ names) : (names.zip items).lookup field = none := by
  refine lookup_eq_none_of_notMem fun hmem => h ?_
  obtain ⟨pair, hpair, rfl⟩ := List.mem_map.mp hmem
  exact (List.of_mem_zip hpair).1

theorem nodup_zip {names : List BlockField} (h : names.Nodup) (items : List Value) :
    ((names.zip items).map (·.1)).Nodup := by
  induction names generalizing items with
  | nil => simp
  | cons field others ih =>
      cases items with
      | nil => simp
      | cons item rest =>
          obtain ⟨hfield, hothers⟩ := List.nodup_cons.mp h
          refine List.nodup_cons.mpr ⟨fun hmem => hfield ?_, ih hothers rest⟩
          obtain ⟨pair, hpair, rfl⟩ := List.mem_map.mp hmem
          exact (List.of_mem_zip hpair).1

/-- The number of items that an array of a kind has at least. Only the body may be left off. -/
def needed (kind : BlockKind) : Nat :=
  if kind.fields.getLast? = some .body then kind.fields.length - 1 else kind.fields.length

theorem checkLength_of_enough {kind : BlockKind} {count : Nat} (h : needed kind ≤ count) :
    checkLength kind count = .ok () ↔ count ≤ kind.fields.length := by
  have henough : ¬ count < needed kind := Nat.not_lt.mpr h
  rw [needed] at henough
  simp only [checkLength, if_neg henough]
  split
  · next hmore => simpa using hmore
  · next hfew => simpa using hfew

/-- Once every field but the body is given, only items beyond the last field are at fault. -/
theorem checkLength_eq_ok_iff {kind : BlockKind} {items : List Value}
    (h : ∀ field ∈ kind.fields, (kind.fields.zip items).lookup field = none → field = .body) :
    checkLength kind items.length = .ok () ↔ items.length ≤ kind.fields.length := by
  refine checkLength_of_enough ?_
  cases kind with
  | space level =>
      rcases items with _ | ⟨name, rest⟩
      · exact absurd (h .name (by simp [BlockKind.fields]) rfl) (by decide)
      · change 1 ≤ rest.length + 1
        omega
  | rule =>
      rcases items with _ | ⟨criterion, _ | ⟨symbol, _ | ⟨value, rest⟩⟩⟩
      case cons.cons.cons =>
        change 3 ≤ rest.length + 3
        omega
      all_goals exact absurd (h .value (by decide) rfl) (by decide)
  | set =>
      rcases items with _ | ⟨parameter, _ | ⟨value, rest⟩⟩
      case cons.cons =>
        change 2 ≤ rest.length + 2
        omega
      all_goals exact absurd (h .value (by decide) rfl) (by decide)
  | component | confType =>
      rcases items with _ | ⟨name, rest⟩
      · exact absurd (h .name (by decide) rfl) (by decide)
      · change 1 ≤ rest.length + 1
        omega

/-- A table decodes as it is encoded, if its body does. -/
theorem ofValue_table_iff {entries : List (String × Value)} {block : Block}
    (hkeys : (entries.map (·.1)).Nodup)
    (hbody : ∀ items, entries.lookup "body" = some (.array items) → ∀ blocks,
      ofItems items = .ok blocks ↔ EncodesAll items blocks) :
    ofValue (.table entries) = .ok block ↔ Encodes (.table entries) block := by
  have hkind (kind : BlockKind) :
      kindIn entries = .ok kind ↔ entries.lookup "kind" = some (.text kind.keyword) := by
    rw [kindIn]
    cases entries.lookup "kind" with
    | none => simp
    | some value => simp [kindOf_eq_ok_iff]
  have hbuild (kind : BlockKind) := readFrom_build_iff (fieldPairs kind entries) kind block
    (fun field hfield => lookup_fieldPairs_of_notMem hfield) (by
      intro items hitems
      rw [lookup_fieldPairs] at hitems
      split at hitems
      · exact hbody items hitems
      · cases hitems)
  have hgiven (kind : BlockKind) :
      (∀ field ∈ kind.fields, FieldGiven block field ((fieldPairs kind entries).lookup field)) ↔
        ∀ field ∈ kind.fields, FieldGiven block field (entries.lookup field.key) := by
    refine forall₂_congr fun field hfield => ?_
    rw [lookup_fieldPairs, if_pos hfield]
  rw [ofValue]
  simp only [bind_eq_ok_iff, hkind, fieldsOfEntries_eq,
    readPairs_eq_ok_iff (nodup_fieldPairs _ hkeys), hbuild, hgiven]
  constructor
  · rintro ⟨kind, hkeyword, rfl, hfields⟩
    exact .table hkeyword hfields
  · intro h
    cases h with
    | table hkeyword hfields => exact ⟨_, hkeyword, rfl, hfields⟩

/-- An array decodes as it is encoded, if its body does. -/
theorem ofValue_array_iff {first : Value} {items : List Value} {block : Block}
    (hbody : ∀ inner, .array inner ∈ items → ∀ blocks,
      ofItems inner = .ok blocks ↔ EncodesAll inner blocks) :
    ofValue (.array (first :: items)) = .ok block ↔ Encodes (.array (first :: items)) block := by
  have hbuild (kind : BlockKind) := readFrom_build_iff (kind.fields.zip items) kind block
    (fun field hfield => lookup_zip_of_notMem hfield)
    (fun inner hinner => hbody inner (List.of_mem_zip (mem_of_lookup hinner)).2)
  have hlength (hfields : ∀ field ∈ block.kind.fields,
      FieldGiven block field ((block.kind.fields.zip items).lookup field)) :
      checkLength block.kind items.length = .ok () ↔
        items.length ≤ block.kind.fields.length := by
    refine checkLength_eq_ok_iff fun field hfield hnone => ?_
    have hgiven := hfields field hfield
    rw [hnone] at hgiven
    exact (given_none_iff.mp hgiven).1
  have hread (kind : BlockKind) (fields : BlockFields) :
      fieldsOfItems .none kind.fields items = .ok fields ↔
        ReadFrom (kind.fields.zip items) .none fields := by
    rw [fieldsOfItems_eq, readPairs_eq_ok_iff (nodup_zip (nodup_fields kind) items)]
  rw [ofValue]
  simp only [bind_eq_ok_iff, kindOf_eq_ok_iff, hread]
  constructor
  · rintro ⟨kind, rfl, fields, hfields, ⟨⟩, hcount, hblock⟩
    obtain ⟨rfl, hgiven⟩ := (hbuild kind).mp ⟨fields, hfields, hblock⟩
    exact .array ((hlength hgiven).mp hcount) hgiven
  · intro h
    cases h with
    | array hsize hgiven =>
        obtain ⟨fields, hfields, hblock⟩ := (hbuild block.kind).mpr ⟨rfl, hgiven⟩
        exact ⟨_, rfl, fields, hfields, (), (hlength hgiven).mpr hsize, hblock⟩

theorem ofItems_iff {items : List Value}
    (h : ∀ item ∈ items, ∀ block, ofValue item = .ok block ↔ Encodes item block)
    {blocks : List Block} : ofItems items = .ok blocks ↔ EncodesAll items blocks := by
  induction items generalizing blocks with
  | nil =>
      rw [ofItems]
      constructor
      · rintro ⟨⟩
        exact .nil
      · rintro ⟨⟩
        rfl
  | cons item rest ih =>
      rw [ofItems]
      obtain ⟨hitem, hrest⟩ := List.forall_mem_cons.mp h
      simp only [bind_eq_ok_iff, hitem, ih hrest]
      constructor
      · rintro ⟨block, hblock, others, hothers, ⟨⟩⟩
        exact .cons hblock hothers
      · intro hall
        cases hall with
        | cons hblock hothers => exact ⟨_, hblock, _, hothers, rfl⟩

/-- The items of an array decode as they are encoded, when the values within do. -/
def ArraysDecode (value : Value) : Prop :=
  ∀ items, value = .array items → ∀ blocks, ofItems items = .ok blocks ↔ EncodesAll items blocks

theorem decodes_of_keysDistinct {value : Value} (hdistinct : value.KeysDistinct) :
    (∀ block, ofValue value = .ok block ↔ Encodes value block) ∧ ArraysDecode value := by
  induction hdistinct with
  | text _ | integer _ | float _ | boolean _ | datetime _ =>
      refine ⟨fun block => ?_, fun items h => by cases h⟩
      constructor
      · intro h
        simp [ofValue] at h
      · intro h
        cases h
  | @array items _ ih =>
      have harray (item : Value) (hitem : item ∈ items) : ArraysDecode item := (ih item hitem).2
      constructor
      · intro block
        cases items with
        | nil =>
            constructor
            · intro h
              simp [ofValue] at h
            · intro h
              cases h
        | cons first rest =>
            exact ofValue_array_iff fun inner hinner =>
              harray _ (List.mem_cons_of_mem _ hinner) inner rfl
      · rintro _ ⟨⟩ blocks
        exact ofItems_iff fun item hitem => (ih item hitem).1
  | table hkeys _ ih =>
      refine ⟨fun block => ofValue_table_iff hkeys ?_, fun items h => by cases h⟩
      intro items hitems
      exact (ih _ (mem_of_lookup hitems)).2 items rfl

end Block

namespace Description

theorem ofEntries_iff {entries : List (String × Value)}
    (h : (Value.table entries).KeysDistinct) (blocks : Description) :
    ofEntries entries = .ok blocks ↔ EncodesDocument entries blocks := by
  have harray (items : List Value) (hgiven : entries.lookup "block" = some (.array items)) :
      Block.ofItems items = .ok blocks ↔ EncodesAll items blocks := by
    cases h with
    | table _ values =>
        exact (Block.decodes_of_keysDistinct (values _ (mem_of_lookup hgiven))).2 items rfl blocks
  constructor
  · intro hdecoded
    unfold ofEntries at hdecoded
    split at hdecoded
    · next habsent =>
        cases hdecoded
        exact .empty habsent
    · next items hgiven => exact .blocks hgiven ((harray items hgiven).mp hdecoded)
    · cases hdecoded
  · intro hencoded
    cases hencoded with
    | blocks hgiven hall =>
        rw [ofEntries, hgiven]
        exact (harray _ hgiven).mpr hall
    | empty habsent => rw [ofEntries, habsent]

theorem ofToml_iff {document : String} {blocks : Description} :
    ofToml document = .ok blocks ↔
      ∃ entries, Toml.parse? document = some entries ∧ EncodesDocument entries blocks := by
  rw [ofToml, Toml.decode]
  cases hread : Toml.parse? document with
  | none => simp
  | some entries =>
      have hentries := ofEntries_iff (Toml.keysDistinct_of_parse? hread) blocks
      simp only [Option.some.injEq, exists_eq_left', ← hentries]
      exact mapError_eq_ok_iff

end Description

/-- Decoding accepts exactly the grammar of blocks, in either form and at any depth, of all values
whose tables have distinct keys; those are the values that documents consist of. A document decodes
to the blocks that its table stands for. -/
theorem decoding_accepts_grammar :
    (∀ value : Value, value.KeysDistinct → ∀ block : Block,
      Block.ofValue value = .ok block ↔ Encodes value block) ∧
    (∀ document entries, Toml.parse? document = some entries →
      (Value.table entries).KeysDistinct) ∧
    ∀ document blocks, Description.ofToml document = .ok blocks ↔
      ∃ entries, Toml.parse? document = some entries ∧ EncodesDocument entries blocks := by
  refine ⟨fun value hdistinct block => ?_, fun document entries hread => ?_,
    fun document blocks => ?_⟩
  · exact (Block.decodes_of_keysDistinct hdistinct).1 block
  · exact Toml.keysDistinct_of_parse? hread
  · exact Description.ofToml_iff

/-- A table whose kind stands last and which has a field of another kind, with an array and a table
in its body, of which the inner one leaves its own body off. -/
theorem decoding_accepts_mixed_forms :
    ∃ value : Value, value.KeysDistinct ∧
      Block.ofValue value =
        .ok (.space .domain "D" [.space .conf "C" [], .rule "host" "=" (.integer 1)]) ∧
      Encodes value
        (.space .domain "D" [.space .conf "C" [], .rule "host" "=" (.integer 1)]) := by
  have hconf : (Value.array [.text "conf", .text "C"]).KeysDistinct :=
    .array (by grind [Value.KeysDistinct])
  have hrule : (Value.table [("value", .integer 1), ("kind", .text "rule"),
      ("matcher", .text "="), ("criterion", .text "host")]).KeysDistinct :=
    .table (by decide) (by grind [Value.KeysDistinct])
  have hdomain : (Value.table [
      ("body", .array [
        .array [.text "conf", .text "C"],
        .table [("value", .integer 1), ("kind", .text "rule"), ("matcher", .text "="),
          ("criterion", .text "host")]]),
      ("parameter", .boolean true), ("name", .text "D"), ("kind", .text "domain")]).KeysDistinct :=
    .table (by decide) (by grind [Value.KeysDistinct])
  exact ⟨_, hdomain, rfl, (decoding_accepts_grammar.1 _ hdomain _).mp rfl⟩

end SettingsLang
