/-
# Secrets in tool results

`redact_secrets` walks a JSON value: the value of a field with a telling name is replaced whole,
and a text with a secret in it wherever it stands as a value.  The names of fields are kept as
they are, so a secret that is used as a name goes through (`redaction_clean_iff`).
-/

import PersonalAgent.Tools.Gateway

namespace PersonalAgent.Tools

/-! ### What the walk leaves -/

mutual

/-- The strings of a value at any depth: its texts and the names of its fields. -/
def strings : Value → List String
  | .string text => [text.spelling]
  | .array items => itemStrings items
  | .object fields => fieldStrings fields
  | _ => []

def itemStrings : List Value → List String
  | [] => []
  | item :: items => strings item ++ itemStrings items

def fieldStrings : List (String × Value) → List String
  | [] => []
  | (name, item) :: fields => name :: (strings item ++ fieldStrings fields)

end

mutual

/-- The names of fields that redaction keeps. -/
def keptNames : Value → List String
  | .array items => keptItemNames items
  | .object fields => keptFieldNames fields
  | _ => []

def keptItemNames : List Value → List String
  | [] => []
  | item :: items => keptNames item ++ keptItemNames items

def keptFieldNames : List (String × Value) → List String
  | [] => []
  | (name, item) :: fields =>
    name :: ((if secretName name then [] else keptNames item) ++ keptFieldNames fields)

end

mutual

/-- Arrays of the same length and objects with the same names, down to the fields with a telling
name, whose values are replaced; what is no text is the same. -/
def SameShape : Value → Value → Prop
  | .array items, .array items' => SameItems items items'
  | .object fields, .object fields' => SameFields fields fields'
  | .string _, .string _ => True
  | value, value' => value = value'

def SameItems : List Value → List Value → Prop
  | [], [] => True
  | item :: items, item' :: items' => SameShape item item' ∧ SameItems items items'
  | _, _ => False

def SameFields : List (String × Value) → List (String × Value) → Prop
  | [], [] => True
  | (name, item) :: fields, (name', item') :: fields' => name = name' ∧
    (if secretName name then item' = .string (.plain "[REDACTED]") else SameShape item item') ∧
    SameFields fields fields'
  | _, _ => False

end

/-- No text in the list has a secret in it. -/
def Clean (texts : List String) : Prop := ∀ text ∈ texts, containsSecretPattern text = false

theorem clean_nil : Clean [] := fun _ htext => absurd htext List.not_mem_nil

theorem clean_append {a b : List String} : Clean (a ++ b) ↔ Clean a ∧ Clean b :=
  List.forall_mem_append

theorem clean_cons {a : String} {b : List String} :
    Clean (a :: b) ↔ containsSecretPattern a = false ∧ Clean b := List.forall_mem_cons

theorem clean_redacted : containsSecretPattern "[REDACTED]" = false := by decide +kernel

theorem redactSecretText_clean (text : Text) :
    containsSecretPattern (redactSecretText text).spelling = false ∧
      redactSecretText (redactSecretText text) = redactSecretText text := by
  have hclean : containsSecretPattern (redactSecretText text).spelling = false := by
    unfold redactSecretText
    split_ifs with h
    · exact clean_redacted
    · simpa using h
  refine ⟨hclean, ?_⟩
  rw [redactSecretText, hclean]
  rfl

mutual

theorem redactSecrets_spec : ∀ value, redactSecrets (redactSecrets value) = redactSecrets value ∧
    SameShape value (redactSecrets value) ∧
    (Clean (strings (redactSecrets value)) ↔ Clean (keptNames value))
  | .null | .bool _ | .u64 _ | .i64 _ | .f64 _ => by
    simp [redactSecrets, SameShape, strings, keptNames]
  | .string text => by
    simp [redactSecrets, SameShape, strings, keptNames, Clean, redactSecretText_clean text]
  | .array items => by
    obtain ⟨hagain, hshape, hclean⟩ := redactItems_spec items
    simp only [redactSecrets, SameShape, strings, keptNames, hagain, hclean]
    exact ⟨trivial, hshape, trivial⟩
  | .object fields => by
    obtain ⟨hagain, hshape, hclean⟩ := redactFields_spec fields
    simp only [redactSecrets, SameShape, strings, keptNames, hagain, hclean]
    exact ⟨trivial, hshape, trivial⟩

theorem redactItems_spec : ∀ items, redactItems (redactItems items) = redactItems items ∧
    SameItems items (redactItems items) ∧
    (Clean (itemStrings (redactItems items)) ↔ Clean (keptItemNames items))
  | [] => by simp [redactItems, SameItems, itemStrings, keptItemNames]
  | item :: items => by
    obtain ⟨hagain, hshape, hclean⟩ := redactSecrets_spec item
    obtain ⟨hagains, hshapes, hcleans⟩ := redactItems_spec items
    simp only [redactItems, SameItems, itemStrings, keptItemNames, clean_append, hagain, hagains,
      hclean, hcleans]
    exact ⟨trivial, ⟨hshape, hshapes⟩, trivial⟩

theorem redactFields_spec : ∀ fields, redactFields (redactFields fields) = redactFields fields ∧
    SameFields fields (redactFields fields) ∧
    (Clean (fieldStrings (redactFields fields)) ↔ Clean (keptFieldNames fields))
  | [] => by simp [redactFields, SameFields, fieldStrings, keptFieldNames]
  | (name, item) :: fields => by
    obtain ⟨hagain, hshape, hclean⟩ := redactSecrets_spec item
    obtain ⟨hagains, hshapes, hcleans⟩ := redactFields_spec fields
    simp only [redactFields, SameFields, fieldStrings, keptFieldNames, clean_cons, clean_append,
      hagains, hcleans]
    by_cases hsecret : secretName name = true
    · have hmark : Clean (strings (.string (.plain "[REDACTED]"))) :=
        clean_cons.mpr ⟨clean_redacted, clean_nil⟩
      simp [hsecret, hmark, hshapes, clean_nil]
    · simp [hsecret, hagain, hshape, hshapes, hclean]

end

/-- **What redaction leaves.**  It is idempotent, it keeps the shape and replaces the values of the
fields with telling names; and no string of its result has a secret in it, texts and names at any
depth, exactly if none of the names that it keeps has. -/
theorem redaction_clean_iff (value : Value) :
    redactSecrets (redactSecrets value) = redactSecrets value ∧
    SameShape value (redactSecrets value) ∧
    ((∀ text ∈ strings (redactSecrets value), containsSecretPattern text = false) ↔
      ∀ name ∈ keptNames value, containsSecretPattern name = false) :=
  redactSecrets_spec value

/-- **A secret as a name.**  A result that counts by token keeps the token. -/
theorem secret_name_is_kept :
    let value := Value.object [("ghp_0123456789", .u64 3)]
    "ghp_0123456789" ∈ strings (redactSecrets value) ∧
      containsSecretPattern "ghp_0123456789" = true := by
  decide +kernel

end PersonalAgent.Tools
