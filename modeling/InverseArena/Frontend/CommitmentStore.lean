import InverseArena.Frontend.CommitReveal
import InverseArena.Library.Fallible
import InverseArena.Library.Json
import Mathlib.Data.List.Induction

/-!
# The texts of the commitments on a device

`commit-reveal.ts` again, on what `localStorage` really holds: texts, of which some may not
have been written by `saveCommitment`. Whatever throws inside the `try` of `loadCommitment`
is an exception here.

Results:
* `loadCommitmentText_total`: any text at all gives nothing or a well-formed commitment.
* `commitmentOfText_text`: what `saveCommitment` writes is read again.
* `loadCommitment_history`: after any calls, what is loaded for a pair is what was last saved
  and not cleared for it.
* `Reflects.save`, `Reflects.clear`, `Reflects.load`: the model that keeps records agrees.
-/

namespace InverseArena.Frontend

open Arena Fallible

/-! ## `commit-reveal.ts`, on texts -/

/-- What is thrown. -/
inductive Thrown where
  | SyntaxError
  | TypeError
  | InvalidCharacterError
  deriving DecidableEq, Repr

/-- The texts in `localStorage`. -/
abbrev TextStorage := String → Option Text

/-- What `loadCommitment` returns: a text and bytes. -/
structure LoadedCommitment where
  choice : Text
  salt : List UInt8
  deriving DecidableEq, Repr

/-- `value.key`; `none` is `undefined`. -/
def property (key : Text) : Json → Except Thrown (Option Json)
  | .null => .error .TypeError
  | .object fields => .ok (Json.field? fields key)
  | .bool _ | .number _ | .string _ | .array _ => .ok none

mutual

/-- `String(value)`; an object with a `toString` of its own, which is no function, has no
    text. -/
def valueText : Json → Except Thrown Text
  | .null => .ok (.ofString "null")
  | .bool true => .ok (.ofString "true")
  | .bool false => .ok (.ofString "false")
  | .number x => .ok x.toText
  | .string s => .ok s
  | .array elements => (elementTexts elements).map ([0x2C].intercalate ·)
  | .object fields =>
    if (Json.field? fields (.ofString "toString")).isSome then .error .TypeError
    else .ok (.ofString "[object Object]")

/-- The elements of an array, as they are joined. -/
def elementTexts : List Json → Except Thrown (List Text)
  | [] => .ok []
  | .null :: elements => (elementTexts elements).map ([] :: ·)
  | j :: elements => do
    let first ← valueText j
    let rest ← elementTexts elements
    pure (first :: rest)

end

/-- `String(value)`; `none` is `undefined`. -/
def textOf : Option Json → Except Thrown Text
  | none => .ok (.ofString "undefined")
  | some j => valueText j

/-- `bytesToBase64(bytes)`. -/
def bytesToBase64 (bytes : List UInt8) : Text := (Base64.encode bytes).map Char.toNat

/-- `base64ToBytes(base64)`. -/
def base64ToBytes (base64 : Text) : Except Thrown (List UInt8) :=
  orThrow (Base64.decode (base64.map Char.ofNat)) .InvalidCharacterError

/-- `JSON.parse(raw)`. -/
def parseJson (raw : Text) : Except Thrown Json := orThrow (Json.parse raw) .SyntaxError

/-- The commitment as JSON. -/
def StoredCommitment.toJson (c : StoredCommitment) : Json :=
  .object [(.ofString "choice", .string (.ofString (choiceText c.choice))),
    (.ofString "salt", .string (bytesToBase64 c.salt.toList))]

/-- What `saveCommitment` writes. -/
def StoredCommitment.text (c : StoredCommitment) : Text := Json.stringify c.toJson

/-- The `try` of `loadCommitment`. -/
def commitmentOfText (raw : Text) : Except Thrown (Option LoadedCommitment) := do
  let parsed ← parseJson raw
  match ← property (.ofString "choice") parsed with
  | some (.string choice) =>
    if choice ≠ .ofString "Heads" ∧ choice ≠ .ofString "Tails" then pure none
    else
      let salt ← base64ToBytes (← textOf (← property (.ofString "salt") parsed))
      if salt.length ≠ 32 then pure none else pure (some ⟨choice, salt⟩)
  | _ => pure none

/-- `saveCommitment(arenaId, round, commitment)`. -/
def saveCommitmentText (arenaId : String) (round : ℕ) (c : StoredCommitment) (s : TextStorage) :
    TextStorage :=
  Function.update s (storageKey arenaId round) (some c.text)

/-- `loadCommitment(arenaId, round)`. -/
def loadCommitmentText (arenaId : String) (round : ℕ) (s : TextStorage) :
    Except Thrown (Option LoadedCommitment) :=
  match s (storageKey arenaId round) with
  | none => .ok none
  | some raw =>
    if raw = [] then .ok none
    else match commitmentOfText raw with
      | .ok loaded => .ok loaded
      | .error _ => .ok none

/-- `clearCommitment(arenaId, round)`. -/
def clearCommitmentText (arenaId : String) (round : ℕ) (s : TextStorage) : TextStorage :=
  Function.update s (storageKey arenaId round) none

/-! ## Sequences of calls -/

/-- A call of `saveCommitment` or `clearCommitment`. -/
inductive StorageCall where
  | save (arenaId : String) (round : ℕ) (c : StoredCommitment)
  | clear (arenaId : String) (round : ℕ)
  deriving DecidableEq, Repr

/-- What a call leaves behind. -/
def StorageCall.apply : StorageCall → TextStorage → TextStorage
  | .save arenaId round c => saveCommitmentText arenaId round c
  | .clear arenaId round => clearCommitmentText arenaId round

/-- The calls, one after another. -/
def applyCalls (calls : List StorageCall) (s : TextStorage) : TextStorage :=
  calls.foldl (fun s call => call.apply s) s

/-- The arena and the round of a call. -/
def StorageCall.pair : StorageCall → String × ℕ
  | .save arenaId round _ | .clear arenaId round => (arenaId, round)

/-- What a call saves. -/
def StorageCall.saved : StorageCall → Option StoredCommitment
  | .save _ _ c => some c
  | .clear .. => none

/-- The last call for an arena and a round. -/
def lastCall (arenaId : String) (round : ℕ) (calls : List StorageCall) : Option StorageCall :=
  calls.reverse.find? (·.pair = (arenaId, round))

/-- A commitment as it is loaded. -/
def StoredCommitment.loaded (c : StoredCommitment) : LoadedCommitment :=
  ⟨.ofString (choiceText c.choice), c.salt.toList⟩

/-- A choice that there is, and 32 bytes. -/
def LoadedCommitment.WellFormed (c : LoadedCommitment) : Prop :=
  (∃ choice : Choice, c.choice = .ofString (choiceText choice)) ∧ c.salt.length = 32

/-! ## Reading what was written -/

theorem bytesToBase64_chars (bytes : List UInt8) :
    (bytesToBase64 bytes).map Char.ofNat = Base64.encode bytes := by
  rw [bytesToBase64, List.map_map]
  exact (List.map_congr_left fun c _ => Char.ofNat_toNat c).trans (List.map_id _)

theorem base64ToBytes_bytesToBase64 (bytes : List UInt8) :
    base64ToBytes (bytesToBase64 bytes) = .ok bytes := by
  rw [base64ToBytes, bytesToBase64_chars, Base64.decode_encode]
  rfl

theorem parseJson_text (c : StoredCommitment) : parseJson c.text = .ok c.toJson := by
  have hparse : Json.parse c.text = some c.toJson := by
    refine Json.parse_stringify fun t ht => ?_
    simp only [StoredCommitment.toJson, Json.tokens, Json.fieldTokens, List.cons_append,
      List.nil_append, List.mem_cons, List.not_mem_nil, or_false] at ht
    rcases ht with rfl | rfl | rfl | rfl | rfl | rfl | rfl | rfl | rfl <;> trivial
  rw [parseJson, hparse]
  rfl

/-- What `saveCommitment` writes is read again. -/
theorem commitmentOfText_text (c : StoredCommitment) :
    commitmentOfText c.text = .ok (some c.loaded) := by
  have hchoice : property (.ofString "choice") c.toJson =
      .ok (some (.string (.ofString (choiceText c.choice)))) := rfl
  have hsalt : property (.ofString "salt") c.toJson =
      .ok (some (.string (bytesToBase64 c.salt.toList))) := rfl
  have hknown : ¬ (Text.ofString (choiceText c.choice) ≠ .ofString "Heads" ∧
      Text.ofString (choiceText c.choice) ≠ .ofString "Tails") := by
    cases c.choice <;> simp [choiceText]
  have hlength : ¬ c.salt.toList.length ≠ 32 := not_not.mpr Vector.length_toList
  unfold commitmentOfText
  simp only [parseJson_text, hchoice, hsalt, textOf, valueText, base64ToBytes_bytesToBase64, bind,
    Except.bind, pure, Except.pure, if_neg hknown, if_neg hlength]
  rfl

theorem text_ne_nil (c : StoredCommitment) : c.text ≠ [] := by
  intro hnil
  have hparse := parseJson_text c
  rw [hnil] at hparse
  cases hparse

/-- Where the `try` returns a commitment, it is well formed. -/
theorem wellFormed_of_text {raw : Text} {c : LoadedCommitment}
    (h : commitmentOfText raw = .ok (some c)) : c.WellFormed := by
  unfold commitmentOfText at h
  obtain ⟨parsed, -, h⟩ := bind_eq_ok.mp h
  obtain ⟨choice, -, h⟩ := bind_eq_ok.mp h
  split at h
  · rename_i choice
    split_ifs at h with hchoice
    · cases h
    · obtain ⟨salt?, -, h⟩ := bind_eq_ok.mp h
      obtain ⟨base64, -, h⟩ := bind_eq_ok.mp h
      obtain ⟨salt, -, h⟩ := bind_eq_ok.mp h
      split_ifs at h with hlength
      · cases h
      · cases h
        refine ⟨?_, not_not.mp hlength⟩
        rw [not_and_or, not_not, not_not] at hchoice
        exact hchoice.elim (fun h => ⟨.Heads, h⟩) fun h => ⟨.Tails, h⟩
  · cases h

/-! ## Loading -/

variable {arenaId : String} {round : ℕ} {s : TextStorage}

/-- `loadCommitment` never throws, and returns nothing or a well-formed commitment. -/
theorem loadCommitmentText_total (arenaId : String) (round : ℕ) (s : TextStorage) :
    ∃ loaded, loadCommitmentText arenaId round s = .ok loaded ∧ ∀ c ∈ loaded, c.WellFormed := by
  unfold loadCommitmentText
  cases s (storageKey arenaId round) with
  | none => exact ⟨none, rfl, fun _ hc => nomatch hc⟩
  | some raw =>
    dsimp only
    split_ifs
    · exact ⟨none, rfl, fun _ hc => nomatch hc⟩
    · cases htext : commitmentOfText raw with
      | error e => exact ⟨none, rfl, fun _ hc => nomatch hc⟩
      | ok loaded =>
        refine ⟨loaded, rfl, fun c hc => @wellFormed_of_text raw c ?_⟩
        rw [htext, Option.mem_def.mp hc]

/-- What is loaded depends on the text under the key alone. -/
theorem loadCommitmentText_of_text {c : StoredCommitment}
    (h : s (storageKey arenaId round) = some c.text) :
    loadCommitmentText arenaId round s = .ok (some c.loaded) := by
  unfold loadCommitmentText
  rw [h]
  dsimp only
  rw [if_neg (text_ne_nil c), commitmentOfText_text]

theorem loadCommitmentText_of_none (h : s (storageKey arenaId round) = none) :
    loadCommitmentText arenaId round s = .ok none := by
  unfold loadCommitmentText
  rw [h]

theorem loadCommitmentText_congr {t : TextStorage}
    (h : s (storageKey arenaId round) = t (storageKey arenaId round)) :
    loadCommitmentText arenaId round s = loadCommitmentText arenaId round t := by
  unfold loadCommitmentText
  rw [h]

/-- A call writes or removes the text of its own pair, and leaves those of the others. -/
theorem StorageCall.apply_key (call : StorageCall) (arenaId : String) (round : ℕ)
    (s : TextStorage) :
    call.apply s (storageKey arenaId round) =
      if call.pair = (arenaId, round) then call.saved.map (·.text)
      else s (storageKey arenaId round) := by
  have hother : ∀ id n, (id, n) ≠ (arenaId, round) →
      storageKey arenaId round ≠ storageKey id n := by
    intro id n hne hkey
    obtain ⟨rfl, rfl⟩ := storageKey_inj hkey
    exact hne rfl
  cases call with
  | save id n c =>
    show Function.update s (storageKey id n) (some c.text) (storageKey arenaId round) = _
    split_ifs with hpair
    · cases hpair
      rw [Function.update_self]
      rfl
    · rw [Function.update_of_ne (hother id n hpair)]
  | clear id n =>
    show Function.update s (storageKey id n) none (storageKey arenaId round) = _
    split_ifs with hpair
    · cases hpair
      rw [Function.update_self]
      rfl
    · rw [Function.update_of_ne (hother id n hpair)]

theorem lastCall_concat (arenaId : String) (round : ℕ) (calls : List StorageCall)
    (call : StorageCall) :
    lastCall arenaId round (calls ++ [call]) =
      if call.pair = (arenaId, round) then some call else lastCall arenaId round calls := by
  unfold lastCall
  rw [List.reverse_append, List.reverse_singleton, List.singleton_append, List.find?_cons]
  split_ifs with hpair <;> simp [hpair]

/-- After any calls, from any storage: what is loaded for an arena and a round is what the
    last call for them saved, nothing if it cleared, and without such a call what it was
    before. In any storage, nothing is thrown and what is loaded is well formed. -/
theorem loadCommitment_history (s : TextStorage) (calls : List StorageCall) (arenaId : String)
    (round : ℕ) :
    (loadCommitmentText arenaId round (applyCalls calls s) =
      match lastCall arenaId round calls with
      | some call => .ok (call.saved.map (·.loaded))
      | none => loadCommitmentText arenaId round s) ∧
    ∃ loaded, loadCommitmentText arenaId round s = .ok loaded ∧ ∀ c ∈ loaded, c.WellFormed := by
  refine ⟨?_, loadCommitmentText_total arenaId round s⟩
  induction calls using List.reverseRecOn with
  | nil => rfl
  | append_singleton calls call ih =>
    have hlast : applyCalls (calls ++ [call]) s = call.apply (applyCalls calls s) := by
      rw [applyCalls, List.foldl_concat]
      rfl
    have hkey := call.apply_key arenaId round (applyCalls calls s)
    rw [hlast, lastCall_concat]
    by_cases hpair : call.pair = (arenaId, round)
    · rw [if_pos hpair] at hkey ⊢
      dsimp only
      cases hsaved : call.saved with
      | none =>
        rw [hsaved] at hkey
        exact loadCommitmentText_of_none hkey
      | some c =>
        rw [hsaved] at hkey
        exact loadCommitmentText_of_text hkey
    · rw [if_neg hpair] at hkey ⊢
      rw [loadCommitmentText_congr hkey, ih]

/-! ## The model with records -/

/-- Both storages hold the same commitments, one as records and one as texts. -/
def Reflects (records : LocalStorage) (texts : TextStorage) : Prop :=
  ∀ key, ∃ c : Option StoredCommitment,
    records key = c.map (·.json) ∧ texts key = c.map (·.text)

variable {records : LocalStorage}

theorem Reflects.empty : Reflects (fun _ => none) (fun _ => none) :=
  fun _ => ⟨none, rfl, rfl⟩

theorem Reflects.update (h : Reflects records s) (key : String) (c : Option StoredCommitment) :
    Reflects (Function.update records key (c.map (·.json)))
      (Function.update s key (c.map (·.text))) := by
  intro other
  by_cases heq : other = key
  · subst heq
    exact ⟨c, Function.update_self .., Function.update_self ..⟩
  · rw [Function.update_of_ne heq, Function.update_of_ne heq]
    exact h other

theorem Reflects.save (h : Reflects records s) (arenaId : String) (round : ℕ)
    (c : StoredCommitment) :
    Reflects (saveCommitment arenaId round c records) (saveCommitmentText arenaId round c s) :=
  h.update _ (some c)

theorem Reflects.clear (h : Reflects records s) (arenaId : String) (round : ℕ) :
    Reflects (clearCommitment arenaId round records) (clearCommitmentText arenaId round s) :=
  h.update _ none

/-- Both load the same commitment. -/
theorem Reflects.load (h : Reflects records s) (arenaId : String) (round : ℕ) :
    loadCommitmentText arenaId round s =
      .ok ((loadCommitment arenaId round records).map (·.loaded)) := by
  obtain ⟨c, hrecord, htext⟩ := h (storageKey arenaId round)
  unfold loadCommitment loadCommitmentAt
  rw [hrecord]
  cases c with
  | none => exact loadCommitmentText_of_none htext
  | some c =>
    rw [Option.map_some, Option.bind_some, commitment_json]
    exact loadCommitmentText_of_text htext

end InverseArena.Frontend
