import EthereumLogs.Config
import EthereumLogs.Python.JsonText

namespace EthereumLogs.CollectionScope
open Python PrefixCode

section Payload

def optionalText : Option Text → Json
  | none => .null
  | some s => .str s

def canonicalPayload (scope : CollectionScope) : JsonObject :=
  [("scope_id", .str scope.scopeId), ("scope_mode", .str scope.scopeMode),
   ("chain_id", .int scope.chainId), ("address_filter", optionalText scope.addressFilter),
   ("topics", .arr (scope.topicFilter.map Json.str)),
   ("from_address_filter", optionalText scope.fromAddressFilter),
   ("to_address_filter", optionalText scope.toAddressFilter)]

variable (floatRepr : Rat → Text) (sha256 : Text → Text)

def canonicalText (scope : CollectionScope) : Text := dumps floatRepr (.obj scope.canonicalPayload)

def fingerprint (scope : CollectionScope) : Except Exc Text :=
  (jsonDumps floatRepr (.obj scope.canonicalPayload)).map sha256

end Payload

variable {floatRepr : Rat → Text} {sha256 : Text → Text}

def optionCode (text : Option Text) : Text := text.elim "null".toList jsonString

theorem dumps_optionalText (text : Option Text) :
    dumps floatRepr (optionalText text) = optionCode text := by
  cases text <;> simp only [optionalText, dumps, optionCode, Option.elim]

theorem optionCode_readable : Readable Anything optionCode := by
  rintro (_ | a) (_ | b) s t hs ht heq
  · exact ⟨rfl, List.append_cancel_left heq⟩
  · exact absurd (List.cons.inj heq).1 (by decide)
  · exact absurd (List.cons.inj heq).1 (by decide)
  · obtain ⟨rfl, hst⟩ := jsonString_readable hs ht heq
    exact ⟨rfl, hst⟩

theorem joined_strings (texts : List Text) :
    joined id ',' (dumpsEach floatRepr (texts.map Json.str)) = joined jsonString ',' texts := by
  have heach : dumpsEach floatRepr (texts.map Json.str) = texts.map jsonString := by
    induction texts with
    | nil => rw [List.map_nil, dumpsEach, List.map_nil]
    | cons x xs ih => rw [List.map_cons, dumpsEach, dumps, ih, List.map_cons]
  rw [heach]
  cases texts with
  | nil => rfl
  | cons x xs => simp only [List.map_cons, joined, id, List.flatMap_map]

theorem strings_readable : Readable (StartsWith ']') (joined jsonString ',') :=
  jsonString_readable.joined (by decide) fun s => ⟨'"', _, rfl, by decide⟩

def entry (key : String) (value rest : Text) : Text := jsonString key.toList ++ ':' :: (value ++ rest)

theorem entry_cancel {key : String} {value value' rest rest' : Text}
    (h : entry key value rest = entry key value' rest') : value ++ rest = value' ++ rest' :=
  (List.cons.inj (List.append_cancel_left h)).2

theorem canonicalText_eq (scope : CollectionScope) : canonicalText floatRepr scope =
    '\x7b' :: entry "address_filter" (optionCode scope.addressFilter)
    (',' :: entry "chain_id" (intText scope.chainId)
    (',' :: entry "from_address_filter" (optionCode scope.fromAddressFilter)
    (',' :: entry "scope_id" (jsonString scope.scopeId)
    (',' :: entry "scope_mode" (jsonString scope.scopeMode)
    (',' :: entry "to_address_filter" (optionCode scope.toAddressFilter)
    (',' :: entry "topics" ('[' :: joined jsonString ',' scope.topicFilter) [']', '\x7d'])))))) := by
  have hsorted : (dumpsFields floatRepr scope.canonicalPayload).insertionSort byKey =
      [("address_filter", optionCode scope.addressFilter), ("chain_id", intText scope.chainId),
       ("from_address_filter", optionCode scope.fromAddressFilter),
       ("scope_id", jsonString scope.scopeId), ("scope_mode", jsonString scope.scopeMode),
       ("to_address_filter", optionCode scope.toAddressFilter),
       ("topics", '[' :: joined jsonString ',' scope.topicFilter ++ [']'])] := by
    simp [canonicalPayload, dumpsFields, dumps, dumps_optionalText, joined_strings,
      List.insertionSort, byKey]
  rw [canonicalText, dumps, hsorted]
  generalize joined jsonString ',' scope.topicFilter = topics
  simp only [joined, member, entry, List.flatMap_cons, List.flatMap_nil, List.append_assoc,
    List.cons_append, List.nil_append, List.append_nil]

theorem canonicalText_injective (floatRepr : Rat → Text) :
    Function.Injective (canonicalText floatRepr) := by
  intro a b heq
  have hcomma : ∀ rest : Text, EndsNumber (',' :: rest) := fun rest => ⟨',', rest, rfl, rfl⟩
  have hbracket : ∀ rest : Text, StartsWith ']' (']' :: rest) := fun rest => ⟨rest, rfl⟩
  rw [canonicalText_eq, canonicalText_eq] at heq
  obtain ⟨haddress, heq⟩ := optionCode_readable trivial trivial (entry_cancel (List.cons.inj heq).2)
  obtain ⟨hchain, heq⟩ := intText_readable (hcomma _) (hcomma _) (entry_cancel (List.cons.inj heq).2)
  obtain ⟨hfrom, heq⟩ := optionCode_readable trivial trivial (entry_cancel (List.cons.inj heq).2)
  obtain ⟨hid, heq⟩ := jsonString_readable trivial trivial (entry_cancel (List.cons.inj heq).2)
  obtain ⟨hmode, heq⟩ := jsonString_readable trivial trivial (entry_cancel (List.cons.inj heq).2)
  obtain ⟨hto, heq⟩ := optionCode_readable trivial trivial (entry_cancel (List.cons.inj heq).2)
  have htext := (List.cons.inj (entry_cancel (List.cons.inj heq).2)).2
  obtain ⟨htopics, -⟩ := strings_readable (hbracket _) (hbracket _) htext
  obtain ⟨⟩ := a
  obtain ⟨⟩ := b
  simp_all

theorem printableEach_strings (texts : List Text) : printableEach (texts.map Json.str) = true := by
  induction texts with
  | nil => rfl
  | cons x xs ih => simp only [List.map_cons, printableEach, printable, ih, Bool.and_self]

theorem printable_optionalText (text : Option Text) : printable (optionalText text) = true := by
  cases text with
  | none => rfl
  | some text => rfl

theorem printable_canonicalPayload (scope : CollectionScope) :
    printable (.obj scope.canonicalPayload) = true ↔ PrintableInt scope.chainId := by
  simp only [canonicalPayload, printable, printableFields, printableEach_strings,
    printable_optionalText, Bool.and_true, Bool.true_and, decide_eq_true_eq]

theorem fingerprint_eq (floatRepr : Rat → Text) (sha256 : Text → Text) (scope : CollectionScope) :
    fingerprint floatRepr sha256 scope =
      if PrintableInt scope.chainId then .ok (sha256 (canonicalText floatRepr scope))
      else .error tooManyDigits := by
  rw [fingerprint, jsonDumps]
  simp only [printable_canonicalPayload]
  split_ifs
  · rfl
  · rfl

def Collides (sha256 : Text → Text) (s t : Text) : Prop := s ≠ t ∧ sha256 s = sha256 t

theorem fingerprint_ok {scope : CollectionScope} {text : Text}
    (h : fingerprint floatRepr sha256 scope = .ok text) :
    text = sha256 (canonicalText floatRepr scope) := by
  rw [fingerprint_eq] at h
  split_ifs at h
  exact (Except.ok.inj h).symm

theorem fingerprint_identifies (floatRepr : Rat → Text) (sha256 : Text → Text)
    (a b : CollectionScope) :
    ((fingerprint floatRepr sha256 a).isOk = true ↔ PrintableInt a.chainId) ∧
      ∀ f g, fingerprint floatRepr sha256 a = .ok f → fingerprint floatRepr sha256 b = .ok g →
        (f = g ↔ a = b ∨ Collides sha256 (canonicalText floatRepr a) (canonicalText floatRepr b)) := by
  constructor
  · rw [fingerprint_eq]
    split_ifs with hprintable
    · exact iff_of_true rfl hprintable
    · exact iff_of_false Bool.false_ne_true hprintable
  · intro f g ha hb
    rw [fingerprint_ok ha, fingerprint_ok hb]
    constructor
    · intro h
      rcases eq_or_ne (canonicalText floatRepr a) (canonicalText floatRepr b) with htext | htext
      · exact .inl (canonicalText_injective floatRepr htext)
      · exact .inr ⟨htext, h⟩
    · rintro (rfl | h)
      · rfl
      · exact h.2

def unfilteredScope : CollectionScope := { defaultTransferTopicAllAddresses 1 with topicFilter := [] }

theorem fingerprint_identifies_default :
    fingerprint (fun _ => []) id (defaultTransferTopicAllAddresses 1) ≠
      fingerprint (fun _ => []) id unfilteredScope := by
  have hprintable : PrintableInt 1 := by decide +kernel
  have hdefault : fingerprint (fun _ => []) id (defaultTransferTopicAllAddresses 1) = .ok _ :=
    (fingerprint_eq _ _ _).trans (if_pos hprintable)
  have hunfiltered : fingerprint (fun _ => []) id unfilteredScope = .ok _ :=
    (fingerprint_eq _ _ _).trans (if_pos hprintable)
  intro h
  rw [hdefault, hunfiltered] at h
  rcases ((fingerprint_identifies (fun _ => []) id (defaultTransferTopicAllAddresses 1)
    unfilteredScope).2 _ _ hdefault hunfiltered).mp (Except.ok.inj h) with hsame | hcollides
  · cases congrArg CollectionScope.topicFilter hsame
  · exact hcollides.1 hcollides.2

end EthereumLogs.CollectionScope
