import EthereumLogs.NormalizedRows
import EthereumLogs.Python.HexSpelling

namespace EthereumLogs.LogNormalizer
open Python Effect

inductive Alike {ε α : Type} (R : α → α → Prop) : Except ε α → Except ε α → Prop
  | ok {a b : α} (h : R a b) : Alike R (.ok a) (.ok b)
  | error (e : ε) : Alike R (.error e) (.error e)

theorem Alike.bind {ε α β : Type} {R : α → α → Prop} {x y : Except ε α} {f g : α → Except ε β}
    (h : Alike R x y) (hfg : ∀ a b, R a b → f a = g b) : (x >>= f) = (y >>= g) := by
  cases h with
  | ok h => exact hfg _ _ h
  | error e => rfl

theorem bind_eq {ε α β : Type} {x y : Except ε α} {f g : α → Except ε β} (h : x = y)
    (hfg : ∀ a, f a = g a) : (x >>= f) = (y >>= g) := by
  rw [h, funext hfg]

inductive SameHex : Json → Json → Prop
  | same (v : Json) : SameHex v v
  | digits {ds es : Text} (h : HexCases ds es) :
      SameHex (.str ('0' :: 'x' :: ds)) (.str ('0' :: 'x' :: es))

inductive SameQuantity : Json → Json → Prop
  | hex {v w : Json} (h : SameHex v w) : SameQuantity v w
  | padded (i j : ℕ) {c d : Char} {ds es : Text} (hc : HexDigitText c)
      (h : HexCases (c :: ds) (d :: es)) :
      SameQuantity (.str (quantityText i (c :: ds))) (.str (quantityText j (d :: es)))

inductive SameTopics : Json → Json → Prop
  | same (v : Json) : SameTopics v v
  | list {xs ys : List Json} (h : List.Forall₂ SameHex xs ys) : SameTopics (.arr xs) (.arr ys)

def hexFields : List String := ["blockHash", "transactionHash", "address", "data"]

def quantityFields : List String := ["blockNumber", "logIndex", "transactionIndex"]

structure SameSpelling (a b : JsonObject) : Prop where
  hexField : ∀ key ∈ hexFields, Option.Rel SameHex (a.get key) (b.get key)
  quantity : ∀ key ∈ quantityFields, Option.Rel SameQuantity (a.get key) (b.get key)
  topics : Option.Rel SameTopics (a.get "topics") (b.get "topics")
  others : ∀ key, key ∉ "topics" :: (hexFields ++ quantityFields) → a.get key = b.get key

variable {a b : JsonObject} {v w : Json} {c : Char} {ds es : Text}

theorem SameHex.required (h : SameHex v w) : requiredHex v.asStr = requiredHex w.asStr := by
  cases h with
  | same => rfl
  | @digits ds es h =>
    have hlower : lower ('0' :: 'x' :: ds) = lower ('0' :: 'x' :: es) :=
      HexCases.lower (.cons (.same _) (.cons (.same _) h))
    have hint : int16 (if ds = [] then ['0'] else ds) = int16 (if es = [] then ['0'] else es) := by
      cases h with
      | nil => rfl
      | cons hcd hrest => exact HexCases.int16 (.cons hcd hrest)
    change (int16 (if ds = [] then ['0'] else ds)).map (fun _ => lower ('0' :: 'x' :: ds)) =
      (int16 (if es = [] then ['0'] else es)).map fun _ => lower ('0' :: 'x' :: es)
    rw [hint, hlower]

theorem SameHex.toInt (h : SameHex v w) : hexQuantityToInt v.asStr = hexQuantityToInt w.asStr := by
  cases h with
  | same => rfl
  | @digits ds es h => exact HexCases.int16 (.cons (.same _) (.cons (.same _) h))

theorem SameQuantity.toInt (h : SameQuantity v w) :
    hexQuantityToInt v.asStr = hexQuantityToInt w.asStr := by
  cases h with
  | hex h => exact h.toInt
  | @padded i j c d ds es hc h =>
    have hd : HexDigitText d := by
      cases h with
      | cons hcd _ => exact hcd.digitText hc
    change int16 (quantityText i (c :: ds)) = int16 (quantityText j (d :: es))
    rw [int16_padded hc, int16_padded hd]
    exact HexCases.int16 (.cons (.same _) (.cons (.same _) h))

theorem SameQuantity.optional (h : SameQuantity v w) :
    optionalHexQuantity v = optionalHexQuantity w := by
  have hint := h.toInt
  cases h with
  | hex h =>
    cases h with
    | same => rfl
    | digits h => exact congrArg (Except.map some) hint
  | padded i j hc h => exact congrArg (Except.map some) hint

theorem topicOrNone_same {xs ys : List Json} (h : List.Forall₂ SameHex xs ys) (i : ℕ) :
    topicOrNone xs i = topicOrNone ys i := by
  induction h generalizing i with
  | nil => rfl
  | @cons x y xs ys hxy _ ih =>
    cases i with
    | succ i => exact ih i
    | zero =>
      have hrequired := hxy.required
      cases hxy with
      | same => rfl
      | digits h => exact congrArg (Except.map some) hrequired

theorem topicsOf_alike (h : Option.Rel SameTopics (a.get "topics") (b.get "topics")) :
    Alike (List.Forall₂ SameHex) (topicsOf a) (topicsOf b) := by
  have hrefl (xs : List Json) : List.Forall₂ SameHex xs xs := List.forall₂_same.mpr fun v _ => .same v
  rw [topicsOf, topicsOf]
  generalize a.get "topics" = x at h ⊢
  generalize b.get "topics" = y at h ⊢
  cases h with
  | none => exact .ok .nil
  | some h =>
    cases h with
    | list h => exact .ok h
    | same =>
      rename_i topics
      cases topics with
      | arr xs => exact .ok (hrefl xs)
      | _ => exact .error _

theorem item_alike {R : Json → Json → Prop} {key : String}
    (h : Option.Rel R (a.get key) (b.get key)) : Alike R (a.item key) (b.item key) := by
  rw [JsonObject.item, JsonObject.item]
  generalize a.get key = x at h ⊢
  generalize b.get key = y at h ⊢
  cases h with
  | none => exact .error _
  | some h => exact .ok h

theorem getD_related {R : Json → Json → Prop} {x y : Option Json} (h : Option.Rel R x y)
    (hd : R v v) : R (x.getD v) (y.getD v) := by
  cases h with
  | none => exact hd
  | some h => exact h

theorem SameSpelling.removedOf (h : SameSpelling a b) : removedOf a = removedOf b := by
  rw [LogNormalizer.removedOf, LogNormalizer.removedOf, h.others "removed" (by decide)]

theorem SameSpelling.eventFields (h : SameSpelling a b) (chainId n : Int) (t : Instant) :
    eventFields a chainId n t = eventFields b chainId n t := by
  have hitem (key : String) (hkey : key ∈ hexFields) := item_alike (h.hexField key hkey)
  rw [LogNormalizer.eventFields, LogNormalizer.eventFields]
  refine (topicsOf_alike h.topics).bind fun xs ys hxy => ?_
  refine bind_eq (topicOrNone_same hxy 0) fun topic0 => ?_
  refine bind_eq (topicOrNone_same hxy 1) fun topic1 => ?_
  refine bind_eq (topicOrNone_same hxy 2) fun topic2 => ?_
  refine bind_eq (topicOrNone_same hxy 3) fun topic3 => ?_
  refine bind_eq (getD_related (h.hexField "data" (by decide)) (.same _)).required fun dataRaw => ?_
  refine bind_eq rfl fun uint256 => ?_
  refine (hitem "blockHash" (by decide)).bind fun v w hvw => ?_
  refine bind_eq hvw.required fun blockHash => ?_
  refine (hitem "transactionHash" (by decide)).bind fun v w hvw => ?_
  refine bind_eq hvw.required fun transactionHash => ?_
  refine bind_eq (getD_related (h.quantity "transactionIndex" (by decide))
    (.hex (.same _))).optional fun transactionIndex => ?_
  refine (item_alike (h.quantity "logIndex" (by decide))).bind fun v w hvw => ?_
  refine bind_eq hvw.toInt fun logIndex => ?_
  refine (hitem "address" (by decide)).bind fun v w hvw => ?_
  refine bind_eq hvw.required fun contractAddress => ?_
  rw [h.removedOf]

theorem SameSpelling.normalizeEvent (h : SameSpelling a b) (ts : Int → Option Datetime)
    (chainId : Int) : normalizeEvent a ts chainId = normalizeEvent b ts chainId := by
  rw [LogNormalizer.normalizeEvent, LogNormalizer.normalizeEvent]
  refine (item_alike (h.quantity "blockNumber" (by decide))).bind fun v w hvw => ?_
  refine bind_eq hvw.toInt fun n => ?_
  exact bind_eq rfl fun t => h.eventFields chainId n t

theorem SameSpelling.normalizeLog (h : SameSpelling a b) (ts : Int → Option Datetime)
    (chainId : Int) (start stop ingested : Datetime) :
    normalizeLog a ts chainId start stop ingested = normalizeLog b ts chainId start stop ingested := by
  rw [LogNormalizer.normalizeLog, LogNormalizer.normalizeLog, h.normalizeEvent]

end EthereumLogs.LogNormalizer
