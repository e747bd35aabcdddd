import InverseArena.Backend.Payments.Creation
import InverseArena.Payout.Idempotence
import Mathlib.Algebra.Group.Nat.Defs
import Mathlib.Data.List.DropRight
import Mathlib.Data.Set.Defs

/-!
# Payout ids on the chain

For the service a payout id is a trimmed text of up to 128 characters; for the payout
contract it is a `u64`, which is paid once. Between the two stands the `BigInt` of
`paymentService.ts` (line 422), which reads several texts as one number and throws on
most of them, among them the example of the API's own documentation. The SDK then takes
the number modulo `2 ^ 64`.

Results:
* `bigInt_eq_natCast`: the texts that are read as a given number.
* `balanced_of_run`: over all runs the ids paid on the chain are those of the payouts made.
* `payoutIds_iff`: the contract tells the payouts of some ids apart exactly if these spell
  natural numbers that differ modulo `2 ^ 64`.
-/

namespace InverseArena.Backend.Payments

open Transition
open InverseArena.Payout (PayoutAction PayoutStep PayoutWorld TokenCode Paid perform
  perform_eq_alreadyPaid)

/-! ## The encoding -/

/-- The strings that `CreatePayoutRequestSchema` yields as payout ids. -/
def AcceptedPayoutId (s : String) : Prop := ∃ input, payoutIdField input = .ok s

/-- `nativeToScVal(BigInt(payoutId), { type: "u64" })`. -/
def encodePayoutId (sdk : Sdk) (payoutId : String) : Except PaymentError ScVal := do
  sdk.nativeToScVal (← toBigInt payoutId) .u64

/-- What `nativeToScVal` does for `u64`: it takes natural numbers modulo `2 ^ 64`, and
    throws on negative ones. -/
structure Sdk.EncodesU64 (sdk : Sdk) : Prop where
  wraps : ∀ n : ℕ, sdk.nativeToScVal n .u64 = .ok (.u64 (n % 2 ^ 64))
  refuses : ∀ z : ℤ, z < 0 → ∃ e, sdk.nativeToScVal z .u64 = .error e

/-! ## The numbers that texts spell -/

/-- The number that digits write in a base. -/
def valueIn (base : ℕ) (digits : List Char) : ℕ :=
  digits.foldl (fun n c => base * n + digitValue c) 0

/-- At least one digit, and only digits of the base. -/
def DigitsIn (base : ℕ) (digits : List Char) : Prop :=
  digits ≠ [] ∧ ∀ c ∈ digits, digitValue c < base

/-- The letters after the zero of the numerals that are not decimal. -/
def bases : List (Char × ℕ) :=
  [('x', 16), ('X', 16), ('o', 8), ('O', 8), ('b', 2), ('B', 2)]

/-- The spellings of a natural number: decimal digits, which may begin with zeros and a
    plus sign, a minus sign before zero, and digits after the prefix of their base. -/
inductive Spells : List Char → ℕ → Prop
  | unsigned {ds} (h : DigitsIn 10 ds) : Spells ds (valueIn 10 ds)
  | plus {ds} (h : DigitsIn 10 ds) : Spells ('+' :: ds) (valueIn 10 ds)
  | minus {ds} (h : DigitsIn 10 ds) (h0 : valueIn 10 ds = 0) : Spells ('-' :: ds) 0
  | prefixed {c base ds} (hc : (c, base) ∈ bases) (h : DigitsIn base ds) :
      Spells ('0' :: c :: ds) (valueIn base ds)

variable {cs ds : List Char} {c : Char} {base n m : ℕ} {s : String}

theorem inBase_eq_some {z : ℤ} :
    inBase base ds = some z ↔ DigitsIn base ds ∧ (valueIn base ds : ℤ) = z := by
  unfold inBase DigitsIn
  simp only [List.all_eq_true, decide_eq_true_eq]
  split_ifs with h
  · rw [Option.some.injEq, and_iff_right h]
    rfl
  · simp [h]

theorem inBase_eq_natCast : inBase base ds = some (n : ℤ) ↔
    DigitsIn base ds ∧ valueIn base ds = n := by
  rw [inBase_eq_some, Nat.cast_inj]

/-- A letter of a prefix has one base, and is no decimal digit. -/
theorem bases_spec : ∀ p ∈ bases, 10 ≤ digitValue p.1 ∧ ∀ q ∈ bases, q.1 = p.1 → q.2 = p.2 := by
  decide

theorem spells_prefixed (hc : (c, base) ∈ bases) :
    Spells ('0' :: c :: ds) n ↔ DigitsIn base ds ∧ valueIn base ds = n := by
  constructor
  · intro h
    cases h with
    | unsigned h =>
      have hdigit := h.2 c (by simp)
      have hletter : 10 ≤ digitValue c := (bases_spec _ hc).1
      omega
    | prefixed hc' h =>
      cases (bases_spec _ hc).2 _ hc' rfl
      exact ⟨h, rfl⟩
  · rintro ⟨h, rfl⟩
    exact .prefixed hc h

theorem spells_plus : Spells ('+' :: ds) n ↔ DigitsIn 10 ds ∧ valueIn 10 ds = n := by
  constructor
  · intro h
    cases h with
    | unsigned h => exact absurd (h.2 '+' (by simp)) (by decide)
    | plus h => exact ⟨h, rfl⟩
  · rintro ⟨h, rfl⟩
    exact .plus h

theorem spells_minus : Spells ('-' :: ds) n ↔
    DigitsIn 10 ds ∧ valueIn 10 ds = 0 ∧ n = 0 := by
  constructor
  · intro h
    cases h with
    | unsigned h => exact absurd (h.2 '-' (by simp)) (by decide)
    | minus h h0 => exact ⟨h, h0, rfl⟩
  · rintro ⟨h, h0, rfl⟩
    exact .minus h h0

/-- Texts that begin with neither a sign nor a prefix. -/
theorem spells_unsigned (hplus : ∀ ds, cs ≠ '+' :: ds) (hminus : ∀ ds, cs ≠ '-' :: ds)
    (hbase : ∀ p ∈ bases, ∀ ds, cs ≠ '0' :: p.1 :: ds) :
    Spells cs n ↔ DigitsIn 10 cs ∧ valueIn 10 cs = n := by
  constructor
  · intro h
    cases h with
    | unsigned h => exact ⟨h, rfl⟩
    | plus h => exact absurd rfl (hplus _)
    | minus h h0 => exact absurd rfl (hminus _)
    | prefixed hc h => exact absurd rfl (hbase _ hc _)
  · rintro ⟨h, rfl⟩
    exact .unsigned h

/-- `BigInt` of a trimmed text: one case for each pattern of its definition. -/
theorem bigInt_eq_natCast (htrim : trim s.toList = s.toList) (hne : s.toList ≠ []) :
    bigInt s = some (n : ℤ) ↔ Spells s.toList n := by
  unfold bigInt
  rw [htrim]
  generalize s.toList = cs at hne
  split
  · exact absurd rfl hne
  · exact inBase_eq_natCast.trans (spells_prefixed (by decide)).symm
  · exact inBase_eq_natCast.trans (spells_prefixed (by decide)).symm
  · exact inBase_eq_natCast.trans (spells_prefixed (by decide)).symm
  · exact inBase_eq_natCast.trans (spells_prefixed (by decide)).symm
  · exact inBase_eq_natCast.trans (spells_prefixed (by decide)).symm
  · exact inBase_eq_natCast.trans (spells_prefixed (by decide)).symm
  · rename_i ds
    rw [spells_minus]
    simp only [Option.map_eq_some_iff, inBase_eq_some]
    constructor
    · rintro ⟨_, ⟨h, rfl⟩, hz⟩
      exact ⟨h, by omega, by omega⟩
    · rintro ⟨h, h0, rfl⟩
      exact ⟨_, ⟨h, rfl⟩, by simp [h0]⟩
  · rw [inBase_eq_natCast, spells_plus]
  · rename_i hx hX ho hO hb hB hminus hplus
    rw [inBase_eq_natCast, spells_unsigned (fun ds h => hplus ds h) (fun ds h => hminus ds h)]
    simp only [bases, List.forall_mem_cons, List.not_mem_nil, false_imp_iff, forall_true_iff,
      and_true]
    exact ⟨hx, hX, ho, hO, hb, hB⟩

/-! ## Accepted ids -/

theorem trim_trim (cs : List Char) : trim (trim cs) = trim cs := by
  have hpre : trim cs <+: cs.dropWhile isJsSpace := List.rdropWhile_prefix _ _
  have hfront : (trim cs).dropWhile isJsSpace = trim cs := by
    rw [List.dropWhile_eq_self_iff]
    intro hl
    have hstop := List.dropWhile_eq_self_iff.mp (@List.dropWhile_idempotent _ isJsSpace cs)
    rw [hpre.getElem hl]
    exact hstop _
  show ((trim cs).dropWhile isJsSpace).rdropWhile isJsSpace = trim cs
  rw [hfront]
  exact List.rdropWhile_idempotent _ _

theorem AcceptedPayoutId.trimmed (hs : AcceptedPayoutId s) :
    s.toList ≠ [] ∧ trim s.toList = s.toList := by
  obtain ⟨input, hfield⟩ := hs
  unfold payoutIdField stringField at hfield
  cases hid : input.payoutId with
  | none =>
    rw [hid] at hfield
    cases hfield
  | some text =>
    rw [hid] at hfield
    dsimp only at hfield
    split_ifs at hfield with htest
    cases hfield
    rw [String.toList_ofList]
    refine ⟨fun hempty => ?_, trim_trim _⟩
    rw [hempty] at htest
    exact absurd htest (by decide)

theorem AcceptedPayoutId.bigInt_eq (hs : AcceptedPayoutId s) :
    bigInt s = some (n : ℤ) ↔ Spells s.toList n :=
  bigInt_eq_natCast hs.trimmed.2 hs.trimmed.1

theorem AcceptedPayoutId.spells_unique (hs : AcceptedPayoutId s) (hn : Spells s.toList n)
    (hm : Spells s.toList m) : n = m := by
  have hread := hs.bigInt_eq.mpr hn
  rw [hs.bigInt_eq.mpr hm] at hread
  exact (Int.ofNat.inj (Option.some.inj hread)).symm

variable {sdk : Sdk}

/-- The encoding is defined on the spellings of natural numbers, and is that number modulo
    `2 ^ 64`. -/
theorem AcceptedPayoutId.encode_eq_ok (hs : AcceptedPayoutId s) (hsdk : sdk.EncodesU64)
    {v : ScVal} :
    encodePayoutId sdk s = .ok v ↔ ∃ n, Spells s.toList n ∧ v = .u64 (n % 2 ^ 64) := by
  have hread : ∀ z, toBigInt s = .ok z ↔ bigInt s = some z := by
    intro z
    unfold toBigInt
    cases bigInt s with
    | none => simp
    | some z' => simp
  simp only [encodePayoutId, Fallible.bind_eq_ok, hread]
  constructor
  · rintro ⟨z, hz, hv⟩
    by_cases hneg : z < 0
    · obtain ⟨e, he⟩ := hsdk.refuses z hneg
      rw [he] at hv
      cases hv
    · lift z to ℕ using by omega
      rw [hsdk.wraps z] at hv
      exact ⟨z, hs.bigInt_eq.mp hz, (Except.ok.inj hv).symm⟩
  · rintro ⟨n, hspells, rfl⟩
    exact ⟨n, hs.bigInt_eq.mpr hspells, hsdk.wraps n⟩

/-! ## The books of the payouts -/

/-- The payout contract, and the ids of the payouts that were made, newest first. -/
structure PayoutBooks (N : Type) where
  world : PayoutWorld N
  made : List String

/-- Before the first payout. -/
def PayoutBooks.fresh {N : Type} (net : N) : PayoutBooks N := ⟨.fresh net, []⟩

/-- A transaction: one that the service has built for a payout and that distributes its
    amount, or any other one, as long as it distributes nothing, be it that it fails. -/
inductive BooksStep {N : Type} (sdk : Sdk) (ids : Set String) (code : TokenCode N) :
    PayoutBooks N → PayoutAction N → PayoutBooks N → Prop
  | payout {w w' made s i depth auths winner amount} (hs : s ∈ ids)
      (hid : encodePayoutId sdk s = .ok (.u64 i))
      (hstep : PayoutStep code w (.call depth auths (.distributeWinnings i winner amount)) w')
      (hmade : w'.executed = ⟨i, [(winner, amount)]⟩ :: w.executed) :
      BooksStep sdk ids code ⟨w, made⟩ (.call depth auths (.distributeWinnings i winner amount))
        ⟨w', s :: made⟩
  | other {w w' made a} (hstep : PayoutStep code w a w') (hnone : w'.executed = w.executed) :
      BooksStep sdk ids code ⟨w, made⟩ a ⟨w', made⟩

section Books

variable {N : Type} {ids : Set String} {code : TokenCode N} {b b' : PayoutBooks N}

variable (sdk ids) in
/-- What the chain has paid are the encodings of the payouts made. -/
structure Balanced (b : PayoutBooks N) : Prop where
  paid : Paid b.world
  made : ∀ s ∈ b.made, s ∈ ids
  executed : ∀ i, (∃ e ∈ b.world.executed, e.payoutId = i) ↔
    ∃ s ∈ b.made, encodePayoutId sdk s = .ok (.u64 i)

theorem BooksStep.balanced {a : PayoutAction N} (hstep : BooksStep sdk ids code b a b')
    (hb : Balanced sdk ids b) : Balanced sdk ids b' := by
  cases hstep with
  | @payout w w' made s i _ _ _ _ hs hid hstep hmade =>
    refine ⟨hstep.paid hb.paid, List.forall_mem_cons.mpr ⟨hs, hb.made⟩, fun j => ?_⟩
    show (∃ e ∈ w'.executed, e.payoutId = j) ↔ _
    rw [hmade, List.exists_mem_cons_iff, List.exists_mem_cons_iff, hb.executed j, hid]
    simp
  | other hstep hnone =>
    exact ⟨hstep.paid hb.paid, hb.made, fun j => hnone ▸ hb.executed j⟩

theorem balanced_of_run {net : N} {tr : List (PayoutBooks N × PayoutAction N)}
    (hrun : Run (BooksStep sdk ids code) (.fresh net) tr b) : Balanced sdk ids b := by
  refine hrun.invariant (fun _ _ _ hb hstep => hstep.balanced hb)
    ⟨.fresh net, fun _ h => ?_, fun _ => iff_of_false ?_ ?_⟩
  · cases h
  · rintro ⟨_, h, -⟩
    cases h
  · rintro ⟨_, h, -⟩
    cases h

variable (sdk code) in
/-- The contract refuses a payout as made before exactly if it was made, where the admin
    authorises it and its amount is positive. -/
def Recognises (b : PayoutBooks N) (s : String) : Prop :=
  ∀ i, encodePayoutId sdk s = .ok (.u64 i) → ∀ depth auths winner amount,
    perform code (depth + 1) auths (.distributeWinnings i winner amount) b.world =
        .error (.error .AlreadyPaid) ↔
      (∃ admin ∈ b.world.storage.admin, admin ∈ auths) ∧ 0 < amount ∧ s ∈ b.made

/-- Where different ids have different encodings, the contract recognises the payouts. -/
theorem Balanced.recognises (hb : Balanced sdk ids b)
    (hdistinct : ∀ s ∈ ids, ∀ t ∈ ids, s ≠ t → encodePayoutId sdk s ≠ encodePayoutId sdk t)
    (hs : s ∈ ids) : Recognises sdk code b s := by
  intro i hid depth auths winner amount
  rw [perform_eq_alreadyPaid, hb.paid.isPaid, hb.executed]
  have hmade : (∃ t ∈ b.made, encodePayoutId sdk t = .ok (.u64 i)) ↔ s ∈ b.made := by
    constructor
    · rintro ⟨t, ht, htid⟩
      by_contra hno
      exact hdistinct s hs t (hb.made t ht) (fun h => hno (h ▸ ht)) (hid.trans htid.symm)
    · exact fun h => ⟨s, h, hid⟩
  rw [hmade]

end Books

/-! ## The ids that are told apart -/

/-- Payout ids map faithfully to the chain: each is a `u64` there, different ones are
    different, and over all runs the contract recognises the payouts made. -/
structure Faithful (sdk : Sdk) (ids : Set String) : Prop where
  encodable : ∀ s ∈ ids, ∃ i < 2 ^ 64, encodePayoutId sdk s = .ok (.u64 i)
  distinct : ∀ s ∈ ids, ∀ t ∈ ids, s ≠ t → encodePayoutId sdk s ≠ encodePayoutId sdk t
  recognised : ∀ {N : Type} (code : TokenCode N) (net : N) tr b,
    Run (BooksStep sdk ids code) (.fresh net) tr b → ∀ s ∈ ids, Recognises sdk code b s

/-- Each id spells a natural number, and no other one spells the same modulo `2 ^ 64`. -/
structure SpelledApart (ids : Set String) : Prop where
  spelled : ∀ s ∈ ids, ∃ n, Spells s.toList n
  apart : ∀ s ∈ ids, ∀ t ∈ ids, ∀ n m, Spells s.toList n → Spells t.toList m →
    n % 2 ^ 64 = m % 2 ^ 64 → s = t

variable {ids : Set String}

theorem SpelledApart.faithful (hsdk : sdk.EncodesU64) (hids : ∀ s ∈ ids, AcceptedPayoutId s)
    (h : SpelledApart ids) : Faithful sdk ids := by
  have hencode : ∀ s ∈ ids, ∃ n, Spells s.toList n ∧
      encodePayoutId sdk s = .ok (.u64 (n % 2 ^ 64)) := by
    intro s hs
    obtain ⟨n, hn⟩ := h.spelled s hs
    exact ⟨n, hn, ((hids s hs).encode_eq_ok hsdk).mpr ⟨n, hn, rfl⟩⟩
  have hdistinct : ∀ s ∈ ids, ∀ t ∈ ids, s ≠ t →
      encodePayoutId sdk s ≠ encodePayoutId sdk t := by
    intro s hs t ht hne heq
    obtain ⟨n, hn, hsn⟩ := hencode s hs
    rw [hsn] at heq
    obtain ⟨m, hm, hv⟩ := ((hids t ht).encode_eq_ok hsdk).mp heq.symm
    exact hne (h.apart s hs t ht n m hn hm (ScVal.u64.inj hv))
  exact {
    encodable := fun s hs => by
      obtain ⟨n, -, hid⟩ := hencode s hs
      exact ⟨n % 2 ^ 64, Nat.mod_lt _ (Nat.two_pow_pos 64), hid⟩
    distinct := hdistinct
    recognised := fun _ _ _ _ hrun _ hs => (balanced_of_run hrun).recognises hdistinct hs }

/-- The payouts of some accepted ids are told apart on the chain if and only if the ids
    spell natural numbers that differ modulo `2 ^ 64`. -/
theorem payoutIds_iff (hsdk : sdk.EncodesU64) (hids : ∀ s ∈ ids, AcceptedPayoutId s) :
    Faithful sdk ids ↔ SpelledApart ids := by
  refine ⟨fun h => ⟨fun s hs => ?_, fun s hs t ht n m hn hm hmod => ?_⟩,
    fun h => h.faithful hsdk hids⟩
  · obtain ⟨i, -, hid⟩ := h.encodable s hs
    obtain ⟨n, hn, -⟩ := ((hids s hs).encode_eq_ok hsdk).mp hid
    exact ⟨n, hn⟩
  · by_contra hne
    have hsn : encodePayoutId sdk s = .ok (.u64 (n % 2 ^ 64)) :=
      ((hids s hs).encode_eq_ok hsdk).mpr ⟨n, hn, rfl⟩
    have htm : encodePayoutId sdk t = .ok (.u64 (m % 2 ^ 64)) :=
      ((hids t ht).encode_eq_ok hsdk).mpr ⟨m, hm, rfl⟩
    refine h.distinct s hs t ht hne ?_
    rw [hsn, htm, hmod]

theorem sampleSdk_encodesU64 (parse : String → Option Parsed) :
    (sampleSdk parse).EncodesU64 where
  wraps n := by
    simp only [sampleSdk]
    rw [if_pos (Int.natCast_nonneg n), Int.toNat_natCast]
  refuses z hz := by
    simp only [sampleSdk]
    rw [if_neg (by omega)]
    exact ⟨.rejected none, rfl⟩

theorem accepted_of_trim (h : trim s.toList = s.toList)
    (hlen : 1 ≤ jsLength s.toList ∧ jsLength s.toList ≤ 128) : AcceptedPayoutId s := by
  refine ⟨⟨some s, none, none, none, none⟩, ?_⟩
  unfold payoutIdField stringField
  dsimp only
  rw [h, String.ofList_toList, if_pos (by simpa using hlen)]

/-- The ids of the integration test of the built transaction. -/
theorem payoutIds_iff_tests : Faithful (sampleSdk fun _ => none) {"42", "99"} := by
  have h42 : AcceptedPayoutId "42" := accepted_of_trim (by decide +kernel) (by decide +kernel)
  have h99 : AcceptedPayoutId "99" := accepted_of_trim (by decide +kernel) (by decide +kernel)
  have hs42 : Spells "42".toList 42 := h42.bigInt_eq.mp (by decide +kernel)
  have hs99 : Spells "99".toList 99 := h99.bigInt_eq.mp (by decide +kernel)
  refine (payoutIds_iff (sampleSdk_encodesU64 _) ?_).mpr ⟨?_, ?_⟩
  · rintro s (rfl | rfl)
    · exact h42
    · exact h99
  · rintro s (rfl | rfl)
    · exact ⟨42, hs42⟩
    · exact ⟨99, hs99⟩
  · rintro s (rfl | rfl) t (rfl | rfl) n m hn hm hmod
    · rfl
    · rw [h42.spells_unique hn hs42, h99.spells_unique hm hs99] at hmod
      exact absurd hmod (by decide)
    · rw [h99.spells_unique hn hs99, h42.spells_unique hm hs42] at hmod
      exact absurd hmod (by decide)
    · rfl

/-- The schema accepts `01` and `2 ^ 64 + 1` beside `1`, which are one id on the chain, and
    the documented example, which is none. -/
theorem not_payoutIds :
    AcceptedPayoutId "1" ∧ AcceptedPayoutId "01" ∧ AcceptedPayoutId "18446744073709551617" ∧
    AcceptedPayoutId "payout-round-42-winner" ∧
    encodePayoutId (sampleSdk fun _ => none) "1" = .ok (.u64 1) ∧
    encodePayoutId (sampleSdk fun _ => none) "01" = .ok (.u64 1) ∧
    encodePayoutId (sampleSdk fun _ => none) "18446744073709551617" = .ok (.u64 1) ∧
    (∀ i, encodePayoutId (sampleSdk fun _ => none) "payout-round-42-winner" ≠ .ok (.u64 i)) ∧
    ¬ Faithful (sampleSdk fun _ => none) {s | AcceptedPayoutId s} := by
  have h1 : AcceptedPayoutId "1" := accepted_of_trim (by decide +kernel) (by decide +kernel)
  have h01 : AcceptedPayoutId "01" := accepted_of_trim (by decide +kernel) (by decide +kernel)
  have hbig : AcceptedPayoutId "18446744073709551617" :=
    accepted_of_trim (by decide +kernel) (by decide +kernel)
  have hdoc : AcceptedPayoutId "payout-round-42-winner" :=
    accepted_of_trim (by decide +kernel) (by decide +kernel)
  have hsdk := sampleSdk_encodesU64 fun _ => none
  have he1 := (h1.encode_eq_ok hsdk).mpr ⟨1, h1.bigInt_eq.mp (by decide +kernel), rfl⟩
  have he01 := (h01.encode_eq_ok hsdk).mpr ⟨1, h01.bigInt_eq.mp (by decide +kernel), rfl⟩
  have hebig := (hbig.encode_eq_ok hsdk).mpr
    ⟨18446744073709551617, hbig.bigInt_eq.mp (by decide +kernel), rfl⟩
  refine ⟨h1, h01, hbig, hdoc, he1, he01, hebig, fun i hi => ?_, fun hf => ?_⟩
  · obtain ⟨n, hn, -⟩ := (hdoc.encode_eq_ok hsdk).mp hi
    have hnone : bigInt "payout-round-42-winner" = none := by decide +kernel
    have hread := hdoc.bigInt_eq.mpr hn
    rw [hnone] at hread
    cases hread
  · exact hf.distinct "1" h1 "01" h01 (by decide) (he1.trans he01.symm)

end InverseArena.Backend.Payments
