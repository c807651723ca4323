import ManifestModules.Proofs.Effect
import ManifestModules.Proofs.Table
import ManifestModules.Proofs.Template.Questions
import ManifestModules.Value.Data

/-!
# Values of YAML data

A value mirrors the data that it is made from: tags are dropped, and of the entries whose keys have
the same text the last one stays. Data without a value has a key without a text. The keys are looked
at in the order in which they are written, so that the first such key is the one that is reported.
-/

namespace ManifestModules.Value

open Template (Ordered ItemsOrdered EntriesOrdered)
open Yaml (Data)

/-! ## Keys -/

/-- The text of a key; its tags do not matter. -/
inductive Spells : Data → String → Prop
  | string (s : String) : Spells (.string s) s
  | number (n : Number) : Spells (.number n) n.label
  | bool (b : Bool) : Spells (.bool b) (if b then "true" else "false")
  | tagged (tag : String) {key : Data} {text : String} (spells : Spells key text) :
    Spells (.tagged tag key) text

/-- A key that has no text, with the name of its type. -/
inductive Unfit : Data → String → Prop
  | null : Unfit .null "null"
  | sequence (items : List Data) : Unfit (.sequence items) "list"
  | mapping (entries : List (Data × Data)) : Unfit (.mapping entries) "map"
  | tagged (tag : String) {key : Data} {found : String} (unfit : Unfit key found) :
    Unfit (.tagged tag key) found

theorem keyText_eq_ok {key : Data} {text : String} : keyText key = .ok text ↔ Spells key text := by
  constructor
  · intro h
    fun_induction keyText key with
    | case1 => cases h; exact .string _
    | case2 => cases h; exact .number _
    | case3 => cases h; exact .bool _
    | case4 tag key ih => exact .tagged tag (ih h)
    | case5 | case6 | case7 => cases h
  · intro h
    induction h with
    | tagged tag _ ih => exact ih
    | _ => rfl

theorem keyText_eq_error {key : Data} {found : String} :
    keyText key = .error ⟨found⟩ ↔ Unfit key found := by
  constructor
  · intro h
    fun_induction keyText key with
    | case1 | case2 | case3 => cases h
    | case4 tag key ih => exact .tagged tag (ih h)
    | case5 => cases h; exact .null
    | case6 => cases h; exact .sequence _
    | case7 => cases h; exact .mapping _
  · intro h
    induction h with
    | tagged tag _ ih => exact ih
    | _ => rfl

theorem exists_spells_iff {key : Data} :
    (∃ text, Spells key text) ↔ ∀ found, ¬ Unfit key found := by
  cases h : keyText key with
  | ok text =>
    refine iff_of_true ⟨text, keyText_eq_ok.1 h⟩ fun found hunfit => ?_
    cases h.symm.trans (keyText_eq_error.2 hunfit)
  | error fault =>
    refine iff_of_false (fun ⟨text, hspells⟩ => ?_) fun hfit => hfit _ (keyText_eq_error.1 h)
    cases h.symm.trans (keyText_eq_ok.2 hspells)

/-! ## The order of the keys -/

mutual

/-- The keys of all mappings in the data, in the order in which they are written. A key comes before
those in its value, and nothing is looked for in the key itself. -/
def keysOf : Data → List Data
  | .sequence items => keysOfItems items
  | .mapping entries => keysOfEntries entries
  | .tagged _ data => keysOf data
  | .null | .bool _ | .number _ | .string _ => []

def keysOfItems : List Data → List Data
  | [] => []
  | item :: rest => keysOf item ++ keysOfItems rest

def keysOfEntries : List (Data × Data) → List Data
  | [] => []
  | (key, data) :: rest => key :: (keysOf data ++ keysOfEntries rest)

end

/-- Data that is a part of other data: of a list item, of the value of an entry, or of what is
tagged. -/
inductive Part : Data → Data → Prop
  | self (data : Data) : Part data data
  | item {part item : Data} {items : List Data} (mem : item ∈ items) (below : Part part item) :
    Part part (.sequence items)
  | value {part key data : Data} {entries : List (Data × Data)} (mem : (key, data) ∈ entries)
    (below : Part part data) : Part part (.mapping entries)
  | tagged {part data : Data} (tag : String) (below : Part part data) :
    Part part (.tagged tag data)

/-- A key of a mapping that is a part of the data. What is inside a key is no part. -/
def KeyIn (key data : Data) : Prop :=
  ∃ entries, Part (.mapping entries) data ∧ ∃ value, (key, value) ∈ entries

mutual

theorem mem_keysOf {key : Data} : (data : Data) → (key ∈ keysOf data ↔ KeyIn key data)
  | .sequence items => by
    rw [keysOf, mem_keysOfItems items]
    constructor
    · rintro ⟨item, hitem, entries, hpart, hkey⟩
      exact ⟨entries, .item hitem hpart, hkey⟩
    · rintro ⟨entries, hpart, hkey⟩
      cases hpart with
      | item mem below => exact ⟨_, mem, entries, below, hkey⟩
  | .mapping entries => by
    rw [keysOf, mem_keysOfEntries entries]
    constructor
    · rintro (⟨value, hvalue⟩ | ⟨entry, hentry, inner, hpart, hkey⟩)
      · exact ⟨entries, .self _, value, hvalue⟩
      · exact ⟨inner, .value hentry hpart, hkey⟩
    · rintro ⟨inner, hpart, hkey⟩
      cases hpart with
      | self => exact .inl hkey
      | value mem below => exact .inr ⟨_, mem, inner, below, hkey⟩
  | .tagged tag data => by
    rw [keysOf, mem_keysOf data]
    constructor
    · rintro ⟨entries, hpart, hkey⟩
      exact ⟨entries, .tagged tag hpart, hkey⟩
    · rintro ⟨entries, hpart, hkey⟩
      cases hpart with
      | tagged _ below => exact ⟨entries, below, hkey⟩
  | .null | .bool _ | .number _ | .string _ => by
    refine iff_of_false (by simp [keysOf]) ?_
    rintro ⟨entries, ⟨⟩, hkey⟩

theorem mem_keysOfItems {key : Data} :
    (items : List Data) → (key ∈ keysOfItems items ↔ ∃ item ∈ items, KeyIn key item)
  | [] => by simp [keysOfItems]
  | item :: rest => by
    rw [keysOfItems, List.mem_append, mem_keysOf item, mem_keysOfItems rest,
      List.exists_mem_cons_iff]

theorem mem_keysOfEntries {key : Data} : (entries : List (Data × Data)) →
    (key ∈ keysOfEntries entries ↔
      (∃ value, (key, value) ∈ entries) ∨ ∃ entry ∈ entries, KeyIn key entry.2)
  | [] => by simp [keysOfEntries]
  | (other, data) :: rest => by
    rw [keysOfEntries, List.mem_cons, List.mem_append, mem_keysOf data, mem_keysOfEntries rest,
      List.exists_mem_cons_iff]
    simp only [List.mem_cons, Prod.mk.injEq, exists_or, exists_and_left, exists_eq, and_true]
    tauto

end

def checkKeys : List Data → Except NonScalarKey Unit
  | [] => .ok ()
  | key :: rest => do
    let _ ← keyText key
    checkKeys rest

theorem checkKeys_append (first second : List Data) :
    checkKeys (first ++ second) = checkKeys first >>= fun _ => checkKeys second := by
  induction first with
  | nil => rfl
  | cons key rest ih => rw [List.cons_append, checkKeys, checkKeys, ih, bind_assoc]

theorem checkKeys_eq_ok {keys : List Data} :
    checkKeys keys = .ok () ↔ ∀ key ∈ keys, ∃ text, Spells key text := by
  induction keys with
  | nil => simp [checkKeys]
  | cons key rest ih =>
    rw [checkKeys, bind_eq_ok, List.forall_mem_cons]
    simp only [keyText_eq_ok, ih, exists_and_right]

/-- The first key without a text is found. -/
theorem checkKeys_eq_error {keys : List Data} {found : String} :
    checkKeys keys = .error ⟨found⟩ ↔ ∃ before key after, keys = before ++ key :: after ∧
      (∀ key ∈ before, ∃ text, Spells key text) ∧ Unfit key found := by
  induction keys with
  | nil => simp [checkKeys]
  | cons first rest ih =>
    rw [checkKeys, bind_eq_error, keyText_eq_error, exists_first_cons]
    simp only [keyText_eq_ok, ih, exists_and_right]

mutual

/-- The conversion looks at the keys in their order, and cannot fail otherwise. -/
theorem ofData_checkKeys :
    (data : Data) → (ofData data >>= fun _ => .ok ()) = checkKeys (keysOf data)
  | .sequence items => by
    rw [ofData, keysOf, ← ofDataItems_checkKeys items, bind_assoc]
    rfl
  | .mapping entries => by
    rw [ofData, keysOf, ← ofDataEntries_checkKeys entries, bind_assoc]
    rfl
  | .tagged _ data => by
    rw [ofData, keysOf, ofData_checkKeys data]
  | .null | .bool _ | .number _ | .string _ => by
    rw [ofData, keysOf]
    rfl

theorem ofDataItems_checkKeys : (items : List Data) →
    (ofDataItems items >>= fun _ => .ok ()) = checkKeys (keysOfItems items)
  | [] => rfl
  | item :: rest => by
    rw [ofDataItems, keysOfItems, checkKeys_append, ← ofData_checkKeys item,
      ← ofDataItems_checkKeys rest, bind_assoc, bind_assoc]
    simp only [bind_assoc]
    rfl

theorem ofDataEntries_checkKeys : (entries : List (Data × Data)) →
    (ofDataEntries entries >>= fun _ => .ok ()) = checkKeys (keysOfEntries entries)
  | [] => rfl
  | (key, data) :: rest => by
    rw [ofDataEntries, keysOfEntries, checkKeys, checkKeys_append, ← ofData_checkKeys data,
      ← ofDataEntries_checkKeys rest]
    simp only [bind_assoc]
    rfl

end

theorem exists_ofData_iff {data : Data} :
    (∃ value, ofData data = .ok value) ↔ ∀ key ∈ keysOf data, ∃ text, Spells key text := by
  rw [← checkKeys_eq_ok, ← ofData_checkKeys, bind_eq_ok]
  simp

theorem ofData_eq_error {data : Data} {fault : NonScalarKey} :
    ofData data = .error fault ↔ checkKeys (keysOf data) = .error fault := by
  rw [← ofData_checkKeys, bind_eq_error]
  simp

/-! ## The values -/

mutual

/-- The value shows the data without its tags. A map has the texts of the keys, in ascending order,
and for each the value of the last entry whose key has this text. -/
inductive Mirrors : Data → Value → Prop
  | null : Mirrors .null .null
  | bool (b : Bool) : Mirrors (.bool b) (.bool b)
  | number (n : Number) : Mirrors (.number n) (.number n)
  | string (s : String) : Mirrors (.string s) (.string s)
  | sequence {items : List Data} {values : List Value} (mirror : ItemsMirror items values) :
    Mirrors (.sequence items) (.list values)
  | mapping {entries : List (Data × Data)} {pairs : List (String × Value)} {table : Entries}
    (mirror : EntriesMirror entries pairs) (sorted : table.Sorted)
    (last : ∀ key value, table.lookup key = some value ↔ Table.Last pairs key value) :
    Mirrors (.mapping entries) (.map table)
  | tagged (tag : String) {data : Data} {value : Value} (mirror : Mirrors data value) :
    Mirrors (.tagged tag data) value

inductive ItemsMirror : List Data → List Value → Prop
  | nil : ItemsMirror [] []
  | cons {item : Data} {value : Value} {items : List Data} {values : List Value}
    (first : Mirrors item value) (mirror : ItemsMirror items values) :
    ItemsMirror (item :: items) (value :: values)

inductive EntriesMirror : List (Data × Data) → List (String × Value) → Prop
  | nil : EntriesMirror [] []
  | cons {key data : Data} {text : String} {value : Value} {entries : List (Data × Data)}
    {pairs : List (String × Value)} (spells : Spells key text) (first : Mirrors data value)
    (mirror : EntriesMirror entries pairs) :
    EntriesMirror ((key, data) :: entries) ((text, value) :: pairs)

end

mutual

theorem ofData_eq_ok :
    (data : Data) → (value : Value) → (ofData data = .ok value ↔ Mirrors data value)
  | .sequence items, value => by
    rw [ofData, bind_eq_ok]
    constructor
    · rintro ⟨values, hvalues, hvalue⟩
      cases hvalue
      exact .sequence ((ofDataItems_eq_ok items values).1 hvalues)
    · intro h
      cases h with
      | @sequence _ values mirror =>
        exact ⟨values, (ofDataItems_eq_ok items values).2 mirror, rfl⟩
  | .mapping entries, value => by
    rw [ofData, bind_eq_ok]
    constructor
    · rintro ⟨pairs, hpairs, hvalue⟩
      cases hvalue
      obtain ⟨hsorted, hlast⟩ := Table.eq_ofPairs_iff.1 (Eq.refl (Table.ofPairs pairs))
      exact .mapping ((ofDataEntries_eq_ok entries pairs).1 hpairs) hsorted hlast
    · intro h
      cases h with
      | @mapping _ pairs table mirror sorted last =>
        refine ⟨pairs, (ofDataEntries_eq_ok entries pairs).2 mirror, ?_⟩
        rw [Table.eq_ofPairs_iff.2 ⟨sorted, last⟩]
        rfl
  | .tagged tag data, value => by
    rw [ofData, ofData_eq_ok data value]
    constructor
    · exact .tagged tag
    · intro h
      cases h with
      | tagged _ mirror => exact mirror
  | .null, value => ⟨fun h => by cases h; exact .null, fun h => by cases h; rfl⟩
  | .bool b, value => ⟨fun h => by cases h; exact .bool b, fun h => by cases h; rfl⟩
  | .number n, value => ⟨fun h => by cases h; exact .number n, fun h => by cases h; rfl⟩
  | .string s, value => ⟨fun h => by cases h; exact .string s, fun h => by cases h; rfl⟩

theorem ofDataItems_eq_ok : (items : List Data) → (values : List Value) →
    (ofDataItems items = .ok values ↔ ItemsMirror items values)
  | [], values => ⟨fun h => by cases h; exact .nil, fun h => by cases h; rfl⟩
  | item :: rest, values => by
    simp only [ofDataItems, bind_eq_ok]
    constructor
    · rintro ⟨value, hvalue, more, hmore, hvalues⟩
      cases hvalues
      exact .cons ((ofData_eq_ok item value).1 hvalue) ((ofDataItems_eq_ok rest more).1 hmore)
    · intro h
      cases h with
      | @cons _ value _ more first mirror =>
        exact ⟨value, (ofData_eq_ok item value).2 first, more,
          (ofDataItems_eq_ok rest more).2 mirror, rfl⟩

theorem ofDataEntries_eq_ok : (entries : List (Data × Data)) → (pairs : List (String × Value)) →
    (ofDataEntries entries = .ok pairs ↔ EntriesMirror entries pairs)
  | [], pairs => ⟨fun h => by cases h; exact .nil, fun h => by cases h; rfl⟩
  | (key, data) :: rest, pairs => by
    simp only [ofDataEntries, bind_eq_ok]
    constructor
    · rintro ⟨text, htext, value, hvalue, more, hmore, hpairs⟩
      cases hpairs
      exact .cons (keyText_eq_ok.1 htext) ((ofData_eq_ok data value).1 hvalue)
        ((ofDataEntries_eq_ok rest more).1 hmore)
    · intro h
      cases h with
      | @cons _ _ text value _ more spells first mirror =>
        exact ⟨text, keyText_eq_ok.2 spells, value, (ofData_eq_ok data value).2 first, more,
          (ofDataEntries_eq_ok rest more).2 mirror, rfl⟩

end

mutual

theorem ofData_toData : (value : Value) → Ordered value → ofData value.toData = .ok value
  | .list items, h => by
    rw [Ordered] at h
    rw [toData, ofData, ofDataItems_toData items h]
    rfl
  | .map entries, h => by
    rw [Ordered] at h
    rw [toData, ofData, ofDataEntries_toData entries h.2]
    change Except.ok (Value.map (Table.ofPairs entries)) = _
    rw [h.1.ofPairs_eq]
  | .null, _ | .bool _, _ | .number _, _ | .string _, _ => rfl

theorem ofDataItems_toData :
    (items : List Value) → ItemsOrdered items → ofDataItems (toDataItems items) = .ok items
  | [], _ => rfl
  | item :: rest, h => by
    rw [ItemsOrdered] at h
    rw [toDataItems, ofDataItems, ofData_toData item h.1, ofDataItems_toData rest h.2]
    rfl

theorem ofDataEntries_toData : (entries : List (String × Value)) → EntriesOrdered entries →
    ofDataEntries (toDataEntries entries) = .ok entries
  | [], _ => rfl
  | (key, value) :: rest, h => by
    rw [EntriesOrdered] at h
    rw [toDataEntries, ofDataEntries, ofData_toData value h.1, ofDataEntries_toData rest h.2]
    rfl

end

/-- The conversion is exact. It fails just for keys without a text, wherever they are, and reports
the first of them; otherwise its value mirrors the data. The data of an ordered value has this value
again. -/
theorem ofData_exact :
    (∀ data, (∃ value, ofData data = .ok value) ↔
      ∀ key, KeyIn key data → ∀ found, ¬ Unfit key found) ∧
    (∀ data value, ofData data = .ok value ↔ Mirrors data value) ∧
    (∀ data fault, ofData data = .error fault ↔ ∃ before key after,
      keysOf data = before ++ key :: after ∧ (∀ key ∈ before, ∃ text, Spells key text) ∧
        Unfit key fault.found) ∧
    ∀ value, Ordered value → ofData value.toData = .ok value := by
  refine ⟨fun data => ?_, ofData_eq_ok, fun data fault => ?_, ofData_toData⟩
  · rw [exists_ofData_iff]
    simp only [mem_keysOf, exists_spells_iff]
  · rw [ofData_eq_error]
    exact checkKeys_eq_error

def portsData : Data :=
  .mapping [(.number (.integer 80), .string "a"), (.string "80", .string "b"),
    (.number (.float ⟨0x4054000000000000⟩), .string "c"),
    (.tagged "port" (.number (.integer 80)), .sequence [.tagged "x" .null])]

def portsValue : Value := .map [("80", .list [.null])]

def unfitData : Data :=
  .mapping [(.string "a", .sequence [.mapping [(.sequence [], .null)]]), (.null, .null)]

theorem ofData_exact_ports :
    Mirrors portsData portsValue ∧ ofData unfitData = .error ⟨"list"⟩ ∧
    Ordered portsValue ∧ ofData portsValue.toData = .ok portsValue := by
  obtain ⟨-, hmirrors, herror, hagain⟩ := ofData_exact
  have hordered : Ordered portsValue := by
    simp [portsValue, Ordered, ItemsOrdered, EntriesOrdered, Table.Sorted]
  refine ⟨(hmirrors _ _).1 rfl, (herror _ _).2 ?_, hordered, hagain _ hordered⟩
  exact ⟨[.string "a"], .sequence [], [.null], rfl, by simpa using ⟨_, .string "a"⟩,
    .sequence []⟩

end ManifestModules.Value
