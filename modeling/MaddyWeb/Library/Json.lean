import MaddyWeb.Library.Text
import Mathlib.Algebra.GroupWithZero.Nat
import Mathlib.Data.String.Basic

/-!
# JSON values and the text that `json.dumps` writes for them

`render` is the compact form, without a space after a separator.  With `ascii`
every character outside ASCII is written as one or two `\u` escapes.  An object
is the list of its fields in order; a float is kept as the text that
`float.__repr__` gives it.
-/

namespace MaddyWeb.Library

inductive Json
  | null
  | bool (value : Bool)
  | int (value : Int)
  | float (text : String)
  | str (value : String)
  | arr (items : List Json)
  | obj (fields : List (String × Json))
  deriving Repr

namespace Json

/-- `value.get(key)` of an object. -/
def get? (fields : List (String × Json)) (key : String) : Option Json :=
  (fields.find? (·.1 == key)).map (·.2)

mutual

/-- The values that are nested in one another, a scalar counting one. -/
def depth : Json → Nat
  | .arr items => 1 + depthItems items
  | .obj fields => 1 + depthFields fields
  | _ => 1

def depthItems : List Json → Nat
  | [] => 0
  | item :: rest => max (depth item) (depthItems rest)

def depthFields : List (String × Json) → Nat
  | [] => 0
  | (_, value) :: rest => max (depth value) (depthFields rest)

end

/-! ## Text -/

def hexDigit (n : Nat) : Char :=
  if n < 10 then Char.ofNat (0x30 + n) else Char.ofNat (0x61 + n - 10)

/-- `\uXXXX` -/
def unicodeEscape (unit : Nat) : List Char :=
  ['\\', 'u', hexDigit (unit / 0x1000 % 16), hexDigit (unit / 0x100 % 16),
    hexDigit (unit / 0x10 % 16), hexDigit (unit % 16)]

def escapeChar (ascii : Bool) (c : Char) : List Char :=
  if c = '"' then ['\\', '"']
  else if c = '\\' then ['\\', '\\']
  else if c = '\n' then ['\\', 'n']
  else if c = '\r' then ['\\', 'r']
  else if c = '\t' then ['\\', 't']
  else if c.toNat = 0x08 then ['\\', 'b']
  else if c.toNat = 0x0C then ['\\', 'f']
  else if c.toNat < 0x20 then unicodeEscape c.toNat
  else if ascii && 0x7F ≤ c.toNat then
    -- a character beyond the basic plane is a pair of surrogates
    if c.toNat < 0x10000 then unicodeEscape c.toNat
    else unicodeEscape (0xD800 + (c.toNat - 0x10000) / 0x400) ++
      unicodeEscape (0xDC00 + (c.toNat - 0x10000) % 0x400)
  else [c]

def renderString (ascii : Bool) (value : String) : List Char :=
  '"' :: value.toList.flatMap (escapeChar ascii) ++ ['"']

mutual

/-- `json.dumps(value, separators=(",", ":"))` -/
def render (ascii : Bool) : Json → List Char
  | .null => "null".toList
  | .bool true => "true".toList
  | .bool false => "false".toList
  | .int value => (toString value).toList
  | .float text => text.toList
  | .str value => renderString ascii value
  | .arr items => '[' :: renderItems ascii items ++ [']']
  | .obj fields => Char.ofNat 0x7B :: renderFields ascii fields ++ [Char.ofNat 0x7D]

def renderItems (ascii : Bool) : List Json → List Char
  | [] => []
  | [item] => render ascii item
  | item :: next :: rest => render ascii item ++ ',' :: renderItems ascii (next :: rest)

def renderFields (ascii : Bool) : List (String × Json) → List Char
  | [] => []
  | [(key, value)] => renderString ascii key ++ ':' :: render ascii value
  | (key, value) :: next :: rest =>
      renderString ascii key ++ ':' :: render ascii value ++ ',' ::
        renderFields ascii (next :: rest)

end

mutual

/-- `json.dumps(value)`, with a space after each separator. -/
def dumps (ascii : Bool) : Json → List Char
  | .arr items => '[' :: dumpsItems ascii items ++ [']']
  | .obj fields => Char.ofNat 0x7B :: dumpsFields ascii fields ++ [Char.ofNat 0x7D]
  | scalar => render ascii scalar

def dumpsItems (ascii : Bool) : List Json → List Char
  | [] => []
  | [item] => dumps ascii item
  | item :: next :: rest => dumps ascii item ++ ',' :: ' ' :: dumpsItems ascii (next :: rest)

def dumpsFields (ascii : Bool) : List (String × Json) → List Char
  | [] => []
  | [(key, value)] => renderString ascii key ++ ':' :: ' ' :: dumps ascii value
  | (key, value) :: next :: rest =>
      renderString ascii key ++ ':' :: ' ' :: dumps ascii value ++ ',' :: ' ' ::
        dumpsFields ascii (next :: rest)

end

/-! ## `sort_keys` -/

def insertField (field : String × Json) : List (String × Json) → List (String × Json)
  | [] => [field]
  | other :: rest =>
      if field.1 ≤ other.1 then field :: other :: rest else other :: insertField field rest

mutual

def sortKeys : Json → Json
  | .arr items => .arr (sortItems items)
  | .obj fields => .obj (sortFields fields)
  | other => other

def sortItems : List Json → List Json
  | [] => []
  | item :: rest => sortKeys item :: sortItems rest

def sortFields : List (String × Json) → List (String × Json)
  | [] => []
  | (key, value) :: rest => insertField (key, sortKeys value) (sortFields rest)

end

theorem sortItems_eq (items : List Json) : sortItems items = items.map sortKeys := by
  induction items with
  | nil => rfl
  | cons item items ih =>
      rw [sortItems, List.map_cons, ih]

theorem sortItems_eq_nil_iff {items : List Json} : sortItems items = [] ↔ items = [] := by
  rw [sortItems_eq, List.map_eq_nil_iff]

mutual

/-- Every value in it that is neither an array nor an object satisfies `p`. -/
def allScalars (p : Json → Bool) : Json → Bool
  | .arr items => allItems p items
  | .obj fields => allFields p fields
  | other => p other

def allItems (p : Json → Bool) : List Json → Bool
  | [] => true
  | item :: rest => allScalars p item && allItems p rest

def allFields (p : Json → Bool) : List (String × Json) → Bool
  | [] => true
  | (_, value) :: rest => allScalars p value && allFields p rest

end

/-- No number that `allow_nan=False` refuses. -/
def isFinite (value : Json) : Bool :=
  value.allScalars fun
    | .float text => !(["nan", "inf", "-inf"].contains text)
    | _ => true

/-- `value == expected` for an integer -/
def equalsInt (expected : Int) : Json → Bool
  | .int value => value == expected
  | .bool value => (if value then 1 else 0) == expected
  | .float text => text == toString expected ++ ".0"
  | _ => false

theorem allItems_iff {p : Json → Bool} {items : List Json} :
    allItems p items = true ↔ ∀ item ∈ items, item.allScalars p = true := by
  induction items with
  | nil => simp [allItems]
  | cons item items ih => simp [allItems, ih]

theorem allFields_iff {p : Json → Bool} {fields : List (String × Json)} :
    allFields p fields = true ↔ ∀ field ∈ fields, field.2.allScalars p = true := by
  induction fields with
  | nil => simp [allFields]
  | cons field fields ih => simp [allFields, ih]

theorem mem_insertField {field other : String × Json} {fields : List (String × Json)} :
    other ∈ insertField field fields ↔ other = field ∨ other ∈ fields := by
  induction fields with
  | nil => simp [insertField]
  | cons head rest ih =>
      rw [insertField]
      split
      · rw [List.mem_cons]
      · rw [List.mem_cons, ih, List.mem_cons]
        constructor
        · rintro (h | h | h)
          · exact Or.inr (Or.inl h)
          · exact Or.inl h
          · exact Or.inr (Or.inr h)
        · rintro (h | h | h)
          · exact Or.inr (Or.inl h)
          · exact Or.inl h
          · exact Or.inr (Or.inr h)

/-- The sorted fields are the fields, with sorted values. -/
theorem mem_sortFields {other : String × Json} {fields : List (String × Json)} :
    other ∈ sortFields fields ↔ ∃ field ∈ fields, other = (field.1, field.2.sortKeys) := by
  induction fields with
  | nil => simp [sortFields]
  | cons head rest ih => simp [sortFields, mem_insertField, ih]

theorem pairwise_insertField (field : String × Json) {fields : List (String × Json)}
    (h : fields.Pairwise fun a b => a.1 ≤ b.1) :
    (insertField field fields).Pairwise fun a b => a.1 ≤ b.1 := by
  induction fields with
  | nil => exact List.pairwise_singleton _ _
  | cons head rest ih =>
      obtain ⟨hhead, hrest⟩ := List.pairwise_cons.mp h
      rw [insertField]
      split
      · next hle =>
          refine List.pairwise_cons.mpr ⟨?_, h⟩
          intro other hother
          rcases List.mem_cons.mp hother with rfl | hother
          · exact hle
          · exact le_trans hle (hhead other hother)
      · next hgt =>
          refine List.pairwise_cons.mpr ⟨?_, ih hrest⟩
          intro other hother
          rcases mem_insertField.mp hother with rfl | hother
          · exact le_of_lt (not_le.mp hgt)
          · exact hhead other hother

theorem pairwise_sortFields (fields : List (String × Json)) :
    (sortFields fields).Pairwise fun a b => a.1 ≤ b.1 := by
  induction fields with
  | nil => exact List.Pairwise.nil
  | cons field fields ih =>
      obtain ⟨key, value⟩ := field
      rw [sortFields]
      exact pairwise_insertField _ ih

/-- Fields in order, with values in order, stay as they are. -/
theorem sortFields_of_sorted {fields : List (String × Json)}
    (hsorted : fields.Pairwise fun a b => a.1 ≤ b.1)
    (hvalues : ∀ field ∈ fields, field.2.sortKeys = field.2) : sortFields fields = fields := by
  induction fields with
  | nil => rfl
  | cons field fields ih =>
      obtain ⟨key, value⟩ := field
      obtain ⟨hhead, hrest⟩ := List.pairwise_cons.mp hsorted
      have hvalue : value.sortKeys = value := hvalues (key, value) List.mem_cons_self
      rw [sortFields, ih hrest fun other hother => hvalues other (List.mem_cons_of_mem _ hother),
        hvalue]
      cases fields with
      | nil => rfl
      | cons other rest => rw [insertField, if_pos (hhead other List.mem_cons_self)]

mutual

theorem sortKeys_sortKeys : ∀ value : Json, value.sortKeys.sortKeys = value.sortKeys
  | .null | .bool _ | .int _ | .float _ | .str _ => rfl
  | .arr items => by
      rw [sortKeys, sortKeys, sortItems_sortItems items]
  | .obj fields => by
      rw [sortKeys, sortKeys, sortFields_of_sorted (pairwise_sortFields fields)]
      intro field hfield
      obtain ⟨other, hother, rfl⟩ := mem_sortFields.mp hfield
      exact sortKeys_of_mem fields other hother

theorem sortItems_sortItems : ∀ items : List Json, sortItems (sortItems items) = sortItems items
  | [] => rfl
  | item :: rest => by
      rw [sortItems, sortItems, sortKeys_sortKeys item, sortItems_sortItems rest]

theorem sortKeys_of_mem : ∀ (fields : List (String × Json)), ∀ field ∈ fields,
    field.2.sortKeys.sortKeys = field.2.sortKeys
  | (key, value) :: rest, field, hfield => by
      rcases List.mem_cons.mp hfield with rfl | hfield
      · exact sortKeys_sortKeys value
      · exact sortKeys_of_mem rest field hfield

end

/-! ## Lookups in sorted fields -/

theorem get?_insertField (field : String × Json) (fields : List (String × Json)) (key : String) :
    get? (insertField field fields) key =
      if field.1 = key then some field.2 else get? fields key := by
  induction fields with
  | nil =>
      rw [insertField, get?, List.find?_cons]
      by_cases heq : field.1 = key
      · rw [if_pos heq, beq_iff_eq.mpr heq]
        rfl
      · rw [if_neg heq, beq_eq_false_iff_ne.mpr heq]
        rfl
  | cons other fields ih =>
      unfold get? at ih ⊢
      rw [insertField]
      split
      · rw [List.find?_cons]
        by_cases heq : field.1 = key
        · rw [if_pos heq, beq_iff_eq.mpr heq]
          rfl
        · rw [if_neg heq, beq_eq_false_iff_ne.mpr heq]
      · next hgt =>
          rw [List.find?_cons, List.find?_cons]
          by_cases hother : other.1 = key
          · rw [beq_iff_eq.mpr hother, if_neg]
            rintro rfl
            exact hgt (le_of_eq hother.symm)
          · rw [beq_eq_false_iff_ne.mpr hother]
            exact ih

/-- Sorting changes no lookup but for the order of the fields of the value. -/
theorem get?_sortFields (fields : List (String × Json)) (key : String) :
    get? (sortFields fields) key = (get? fields key).map sortKeys := by
  induction fields with
  | nil => rfl
  | cons field fields ih =>
      obtain ⟨name, value⟩ := field
      rw [sortFields, get?_insertField, ih]
      unfold get?
      rw [List.find?_cons]
      by_cases heq : name = key
      · rw [if_pos heq, beq_iff_eq.mpr heq]
        rfl
      · rw [if_neg heq, beq_eq_false_iff_ne.mpr heq]

/-! ## Lengths -/

/-- `len(text.encode("utf-8"))` -/
def utf8Length (text : List Char) : Nat := (text.map Char.utf8Size).sum

theorem length_le_utf8Length (text : List Char) : text.length ≤ utf8Length text := by
  unfold utf8Length
  induction text with
  | nil => exact Nat.le_refl 0
  | cons c text ih =>
      have hpos := Char.utf8Size_pos c
      rw [List.length_cons, List.map_cons, List.sum_cons]
      omega

theorem length_escapeChar_pos (ascii : Bool) (c : Char) : 0 < (escapeChar ascii c).length := by
  unfold escapeChar
  repeat' split
  all_goals simp [unicodeEscape]

theorem length_le_renderString (ascii : Bool) (value : String) :
    value.toList.length ≤ (renderString ascii value).length := by
  have hflat : ∀ text : List Char, text.length ≤ (text.flatMap (escapeChar ascii)).length := by
    intro text
    induction text with
    | nil => exact Nat.le_refl 0
    | cons c text ih =>
        have hpos := length_escapeChar_pos ascii c
        rw [List.length_cons, List.flatMap_cons, List.length_append]
        omega
  have := hflat value.toList
  unfold renderString
  rw [List.length_append, List.length_cons]
  omega

/-- An array is written with all its items. -/
theorem sum_le_renderItems (ascii : Bool) (items : List Json) :
    (items.map fun item => (render ascii item).length).sum ≤ (renderItems ascii items).length := by
  induction items with
  | nil => exact Nat.le_refl 0
  | cons item items ih =>
      cases items with
      | nil =>
          rw [renderItems]
          exact Nat.le_refl _
      | cons next rest =>
          rw [renderItems, List.map_cons, List.sum_cons, List.length_append, List.length_cons]
          omega

/-- An object is written with the value of each of its fields. -/
theorem length_le_renderFields (ascii : Bool) {fields : List (String × Json)} {key : String}
    {value : Json} (h : (key, value) ∈ fields) :
    (render ascii value).length ≤ (renderFields ascii fields).length := by
  induction fields with
  | nil => nomatch h
  | cons field fields ih =>
      obtain ⟨name, other⟩ := field
      cases fields with
      | nil =>
          cases List.mem_singleton.mp h
          rw [renderFields, List.length_append, List.length_cons]
          omega
      | cons next rest =>
          rw [renderFields, List.append_assoc, List.length_append, List.cons_append,
            List.length_cons, List.length_append, List.length_cons]
          rcases List.mem_cons.mp h with heq | h
          · cases heq
            omega
          · have := ih h
            omega

end Json

end MaddyWeb.Library
