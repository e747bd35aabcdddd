import InverseArena.Arena.CommitReveal
import InverseArena.Frontend.CommitReveal

/-!
# Can a committed player reveal?

One device and the arenas it plays in: transactions are built, signed, cancelled, sent, and
may land, fail or never be heard of again, while anybody else calls the arenas. The record
of a commitment is written before its transaction is signed, under a key without the
player, and each attempt writes it anew with a fresh salt, so that it may be the record of
another attempt, or of another player, than the commitment that the contract holds.

Results:
* `recorded_of_run`: the record of a key is what the device has last written to it.
* `readOperation_reveal`: the arena does not read the operation of a reveal as a call.
* `can_reveal`: the record opens every commitment built on the device that the contract
  holds, in the runs in which commitments land only while they are the last ones built.
-/

namespace InverseArena.Frontend

open Arena Transition

variable {H : Type}

/-- The arenas under their contract ids, the accounts of public keys, and the calls that
    contracts read operations as. -/
structure Network (H : Type) where
  env : String → Env H
  account : String → Address
  digest : List UInt8 → BytesN 32
  call : Operation → Option Call
  digest_eq : ∀ pool bytes, (env pool).sha256 bytes = digest bytes

/-- Where a transaction is. -/
inductive TransactionStatus where
  /-- The wallet is asked to sign it. -/
  | pending
  | sent
  | landed
  /-- It was cancelled, has failed, or its confirmation has been seen. -/
  | over
  deriving DecidableEq, Repr

/-- The device, with the transactions built on it in their order, and the arenas. -/
structure DeviceState (H : Type) where
  storage : LocalStorage
  built : List DeviceTransaction
  status : ℕ → TransactionStatus
  arenas : String → World H

/-- What can happen. -/
inductive DeviceStep (H : Type) where
  /-- `buildSubmitCommitmentTransaction(..)`. -/
  | buildSubmitCommitment (publicKey poolId : String) (choice : Choice) (roundNumber : ℕ)
      (salt : BytesN 32) (composed : Bool)
  /-- `buildRevealChoiceTransaction(..)`. -/
  | buildRevealChoice (publicKey poolId : String) (roundNumber : ℕ) (composed : Bool)
  | sign (i : ℕ)
  | cancel (i : ℕ)
  | fail (i : ℕ)
  /-- The network executes a transaction. -/
  | land (i : ℕ)
  /-- `submitSignedTransaction` returns to the page. -/
  | confirm (i : ℕ)
  /-- Something else happens at an arena. -/
  | arena (pool : String) (a : Action H)

variable (net : Network H)

namespace DeviceState

/-- Nothing has been built; the arenas are freshly deployed. -/
def initial (outside : String → H) (now : String → ℕ) : DeviceState H :=
  ⟨fun _ => none, [], fun _ => .pending, fun pool => World.fresh (outside pool) (now pool)⟩

/-- Changes where a transaction is. -/
def move (t : DeviceState H) (i : ℕ) (source target : TransactionStatus) :
    Option (DeviceState H) :=
  if i < t.built.length ∧ t.status i = source then
    some { t with status := Function.update t.status i target }
  else none

/-- What the page does once a transaction is confirmed. -/
def confirmed (t : DeviceState H) (i : ℕ) (tx : DeviceTransaction) : DeviceState H :=
  { t with
    status := Function.update t.status i .over
    storage :=
      if tx.operation.method = "reveal_choice" then
        clearCommitment tx.poolId tx.roundNumber t.storage
      else t.storage }

/-- What the device does by itself. -/
def act (t : DeviceState H) : DeviceStep H → Option (DeviceState H)
  | .buildSubmitCommitment publicKey poolId choice roundNumber salt composed =>
    let built := buildSubmitCommitmentTransaction net.digest net.account publicKey poolId choice
      roundNumber salt composed t.storage
    some { t with storage := built.2, built := t.built ++ built.1.toList }
  | .buildRevealChoice publicKey poolId roundNumber composed =>
    let tx := buildRevealChoiceTransaction net.account publicKey poolId roundNumber composed
      t.storage
    some { t with built := t.built ++ tx.toList }
  | .sign i => t.move i .pending .sent
  | .cancel i => t.move i .pending .over
  | .fail i => t.move i .sent .over
  | .confirm i => t.built[i]?.bind fun tx =>
    if t.status i = .landed then some (t.confirmed i tx) else none
  | .land _ => none
  | .arena _ _ => none

/-- The steps of the device and of the arenas. -/
inductive Step : DeviceState H → DeviceStep H → DeviceState H → Prop
  | act {t u : DeviceState H} {a : DeviceStep H} : t.act net a = some u → Step t a u
  | land {t : DeviceState H} {i : ℕ} {tx : DeviceTransaction} {c : Call} {w : World H} :
      t.built[i]? = some tx → t.status i = .sent → net.call tx.operation = some c →
      Arena.Step (net.env tx.operation.contract) (t.arenas tx.operation.contract)
        (.call [net.account tx.source] c) w →
      Step t (.land i) { t with
        status := Function.update t.status i .landed
        arenas := Function.update t.arenas tx.operation.contract w }
  | arena {t : DeviceState H} {pool : String} {a : Action H} {w : World H} :
      Arena.Step (net.env pool) (t.arenas pool) a w →
      Step t (.arena pool a) { t with arenas := Function.update t.arenas pool w }

/-- The commitment is that of a transaction built on the device. -/
def BuiltHere (t : DeviceState H) (pool : String) (p : Address) (commitment : BytesN 32) : Prop :=
  ∃ tx ∈ t.built, tx.operation =
    ⟨pool, "submit_commitment", [.address p, .bytes commitment]⟩

/-- The record under a key. -/
def stored (t : DeviceState H) (key : String) : Option StoredCommitment :=
  loadCommitmentAt key t.storage

/-- Each commitment built on the device that a contract holds for the round being played is
    opened by what `buildRevealChoiceTransaction` loads, which is gone only once the player
    has revealed. -/
def CanReveal (t : DeviceState H) : Prop :=
  ∀ pool p round commitment, HoldsCommitment (t.arenas pool) p round commitment →
    t.BuiltHere pool p commitment →
    (∃ c ∈ loadCommitment pool round t.storage,
      Arena.computeCommitment (net.env pool) c.choice c.salt = commitment) ∨
    loadCommitment pool round t.storage = none ∧
      (t.arenas pool).storage.choice (p, round) ≠ none

end DeviceState

/-! ## The condition -/

namespace DeviceStep

/-- What a step does at an arena. -/
def action (t : DeviceState H) : DeviceStep H → Option (String × Action H)
  | .land i => do
    let tx ← t.built[i]?
    let c ← net.call tx.operation
    pure (tx.operation.contract, .call [net.account tx.source] c)
  | .arena pool a => some (pool, a)
  | _ => none

/-- What a step writes under a key. -/
def writes (t : DeviceState H) (key : String) : DeviceStep H → Option (Option StoredCommitment)
  | .buildSubmitCommitment publicKey poolId choice roundNumber salt _ =>
    (parseArguments publicKey poolId roundNumber).bind fun (_, pool, round) =>
      if key = storageKey pool round then some (some ⟨choice, salt⟩) else none
  | .confirm i => t.built[i]?.bind fun tx =>
    if tx.operation.method = "reveal_choice" ∧ key = storageKey tx.poolId tx.roundNumber then
      some none
    else none
  | _ => none

end DeviceStep

/-- What has last been written under a key. -/
def lastWritten (key : String) : List (DeviceState H × DeviceStep H) → Option StoredCommitment
  | [] => none
  | (t, a) :: tr => (a.writes t key).getD (lastWritten key tr)

/-- A commitment is built for an arena's current round only while the contract holds none
    that was built on the device, a record is cleared only once those who are to open
    their commitment by it have done so, and a commitment lands only while its record is the
    last one written for the arena and its current round. -/
structure RevealGuarded (tr : List (DeviceState H × DeviceStep H)) (t : DeviceState H)
    (a : DeviceStep H) : Prop where
  builds : ∀ publicKey poolId choice roundNumber salt composed, a = .buildSubmitCommitment
    publicKey poolId choice roundNumber salt composed →
    ∀ key pool round, parseArguments publicKey poolId roundNumber = some (key, pool, round) →
    ∀ p round' commitment, HoldsCommitment (t.arenas pool) p round' commitment →
      commitment ≠ computeCommitment net.digest choice salt ∧
        (round' = round → ¬ t.BuiltHere pool p commitment)
  clears : ∀ i tx, a = .confirm i → t.built[i]? = some tx → tx.operation.method =
    "reveal_choice" → ∀ p commitment,
      HoldsCommitment (t.arenas tx.poolId) p tx.roundNumber commitment →
      t.BuiltHere tx.poolId p commitment →
      (t.arenas tx.poolId).storage.choice (p, tx.roundNumber) ≠ none
  lands : ∀ pool auths p commitment config,
    a.action net t = some (pool, .call auths (.submitCommitment p commitment)) →
    (t.arenas pool).storage.config = some config → t.BuiltHere pool p commitment →
    ∃ c ∈ lastWritten (storageKey pool config.round) tr,
      computeCommitment net.digest c.choice c.salt = commitment

variable {net} {t u : DeviceState H} {a : DeviceStep H}
variable {tr : List (DeviceState H × DeviceStep H)}

/-! ## What a step changes -/

theorem loadCommitment_eq (t : DeviceState H) (pool : String) (round : ℕ) :
    loadCommitment pool round t.storage = t.stored (storageKey pool round) := rfl

/-- A step happens on the device or at one arena. -/
theorem DeviceState.Step.cases_action (hs : DeviceState.Step net t a u) :
    a.action net t = none ∧ t.act net a = some u ∨
    ∃ pool b w, a.action net t = some (pool, b) ∧
      Arena.Step (net.env pool) (t.arenas pool) b w ∧ u.storage = t.storage ∧
      u.built = t.built ∧ u.arenas = Function.update t.arenas pool w := by
  cases hs with
  | act hact =>
    refine .inl ⟨?_, hact⟩
    cases a with
    | land i => cases hact
    | arena pool b => cases hact
    | _ => rfl
  | land htx hstatus hcall hstep =>
    refine .inr ⟨_, _, _, ?_, hstep, rfl, rfl, rfl⟩
    exact Option.bind_eq_some_iff.mpr ⟨_, htx, Option.bind_eq_some_iff.mpr ⟨_, hcall, rfl⟩⟩
  | arena hstep => exact .inr ⟨_, _, _, rfl, hstep, rfl, rfl, rfl⟩

theorem DeviceState.move_eq {i : ℕ} {source target : TransactionStatus}
    (h : t.move i source target = some u) :
    u.storage = t.storage ∧ u.built = t.built ∧ u.arenas = t.arenas := by
  unfold DeviceState.move at h
  split_ifs at h
  cases h
  exact ⟨rfl, rfl, rfl⟩

/-- What the device does does not reach the arenas. -/
theorem DeviceState.act_arenas (h : t.act net a = some u) : u.arenas = t.arenas := by
  cases a with
  | buildSubmitCommitment => cases h; rfl
  | buildRevealChoice => cases h; rfl
  | sign => exact (DeviceState.move_eq h).2.2
  | cancel => exact (DeviceState.move_eq h).2.2
  | fail => exact (DeviceState.move_eq h).2.2
  | confirm =>
    obtain ⟨tx, -, hconfirmed⟩ := Option.bind_eq_some_iff.mp h
    split_ifs at hconfirmed
    cases hconfirmed
    rfl
  | land => cases h
  | arena => cases h

/-- A build that gets past the validation of its arguments. -/
theorem DeviceState.act_build {publicKey poolId key pool : String} {choice : Choice}
    {roundNumber round : ℕ} {salt : BytesN 32} {composed : Bool}
    (h : parseArguments publicKey poolId roundNumber = some (key, pool, round)) :
    t.act net (.buildSubmitCommitment publicKey poolId choice roundNumber salt composed) =
      some { t with
        storage := saveCommitment pool round ⟨choice, salt⟩ t.storage
        built := t.built ++ Option.toList (if composed then some ⟨key,
          buildSubmitCommitmentOperation net.account pool key
            (computeCommitment net.digest choice salt), poolId, roundNumber⟩ else none) } := by
  show some _ = some _
  rw [buildSubmitCommitmentTransaction_of_some h]

/-- The records after what the device does. -/
theorem DeviceState.act_stored (h : t.act net a = some u) (key : String) :
    u.stored key = (a.writes t key).getD (t.stored key) := by
  have hsame : u.storage = t.storage → u.stored key = t.stored key := by
    intro heq
    unfold DeviceState.stored
    rw [heq]
  cases a with
  | buildSubmitCommitment publicKey poolId choice roundNumber salt composed =>
    obtain rfl := Option.some.inj h
    show loadCommitmentAt key (buildSubmitCommitmentTransaction net.digest net.account publicKey
      poolId choice roundNumber salt composed t.storage).2 = (Option.bind _ _).getD _
    cases hparse : parseArguments publicKey poolId roundNumber with
    | none =>
      rw [buildSubmitCommitmentTransaction_of_none hparse]
      rfl
    | some arguments =>
      obtain ⟨validatedPublicKey, pool, round⟩ := arguments
      rw [buildSubmitCommitmentTransaction_of_some hparse, Option.bind_some]
      dsimp only
      by_cases hkey : key = storageKey pool round
      · rw [hkey, if_pos rfl]
        exact loadCommitment_save pool round ⟨choice, salt⟩ t.storage
      · rw [if_neg hkey]
        exact loadCommitmentAt_save_of_ne hkey
  | confirm i =>
    obtain ⟨tx, htx, hconfirmed⟩ := Option.bind_eq_some_iff.mp h
    split_ifs at hconfirmed
    obtain rfl := Option.some.inj hconfirmed
    show _ = (Option.bind _ _).getD _
    rw [htx, Option.bind_some]
    by_cases hreveal : tx.operation.method = "reveal_choice"
    · have hcleared : (t.confirmed i tx).storage =
          clearCommitment tx.poolId tx.roundNumber t.storage := if_pos hreveal
      by_cases hkey : key = storageKey tx.poolId tx.roundNumber
      · rw [if_pos ⟨hreveal, hkey⟩, hkey]
        exact (congrArg _ hcleared).trans loadCommitment_clear
      · rw [if_neg fun hboth => hkey hboth.2]
        exact (congrArg _ hcleared).trans (loadCommitmentAt_clear_of_ne hkey)
    · rw [if_neg fun hboth => hreveal hboth.1]
      exact hsame (if_neg hreveal)
  | buildRevealChoice =>
    obtain rfl := Option.some.inj h
    rfl
  | sign => exact hsame (DeviceState.move_eq h).1
  | cancel => exact hsame (DeviceState.move_eq h).1
  | fail => exact hsame (DeviceState.move_eq h).1
  | land => cases h
  | arena => cases h

/-- A commitment is built by `buildSubmitCommitmentTransaction` only. -/
theorem DeviceState.act_built (h : t.act net a = some u) {pool : String} {p : Address}
    {commitment : BytesN 32} (hbuilt : u.BuiltHere pool p commitment) :
    t.BuiltHere pool p commitment ∨
      ∃ publicKey poolId choice roundNumber salt composed key round,
        a = .buildSubmitCommitment publicKey poolId choice roundNumber salt composed ∧
        parseArguments publicKey poolId roundNumber = some (key, pool, round) ∧
        commitment = computeCommitment net.digest choice salt := by
  have hsame : u.built = t.built → t.BuiltHere pool p commitment := by
    intro heq
    obtain ⟨tx, htx, hoperation⟩ := hbuilt
    exact ⟨tx, heq ▸ htx, hoperation⟩
  cases a with
  | buildSubmitCommitment publicKey poolId choice roundNumber salt composed =>
    obtain rfl := Option.some.inj h
    obtain ⟨tx, htx, hoperation⟩ := hbuilt
    rcases List.mem_append.mp htx with hold | hnew
    · exact .inl ⟨tx, hold, hoperation⟩
    · cases hparse : parseArguments publicKey poolId roundNumber with
      | none =>
        rw [buildSubmitCommitmentTransaction_of_none hparse] at hnew
        cases hnew
      | some arguments =>
        obtain ⟨key, pool', round⟩ := arguments
        rw [buildSubmitCommitmentTransaction_of_some hparse] at hnew
        dsimp only at hnew
        split_ifs at hnew
        · cases List.mem_singleton.mp hnew
          cases hoperation
          exact .inr ⟨publicKey, poolId, choice, roundNumber, salt, composed, key, round, rfl,
            hparse, rfl⟩
        · cases hnew
  | buildRevealChoice publicKey poolId roundNumber composed =>
    obtain rfl := Option.some.inj h
    obtain ⟨tx, htx, hoperation⟩ := hbuilt
    rcases List.mem_append.mp htx with hold | hnew
    · exact .inl ⟨tx, hold, hoperation⟩
    · obtain ⟨arguments, -, hrest⟩ := Option.bind_eq_some_iff.mp (Option.mem_toList.mp hnew)
      obtain ⟨c, -, hcomposed⟩ := Option.bind_eq_some_iff.mp hrest
      split_ifs at hcomposed
      cases hcomposed
      exact absurd (congrArg Operation.method hoperation)
        (by decide : ("reveal_choice" : String) ≠ "submit_commitment")
  | sign => exact .inl (hsame (DeviceState.move_eq h).2.1)
  | cancel => exact .inl (hsame (DeviceState.move_eq h).2.1)
  | fail => exact .inl (hsame (DeviceState.move_eq h).2.1)
  | confirm i =>
    obtain ⟨tx, -, hconfirmed⟩ := Option.bind_eq_some_iff.mp h
    split_ifs at hconfirmed
    obtain rfl := Option.some.inj hconfirmed
    exact .inl (hsame rfl)
  | land => cases h
  | arena => cases h

/-! ## Runs -/

variable {outside : String → H} {now : String → ℕ} {pool : String} {p : Address} {round : ℕ}
variable {commitment : BytesN 32}

/-- The records are what the history says. -/
def Recorded (tr : List (DeviceState H × DeviceStep H)) (t : DeviceState H) : Prop :=
  ∀ key, t.stored key = lastWritten key tr

theorem Recorded.step (h : Recorded tr t) (hs : DeviceState.Step net t a u) :
    Recorded ((t, a) :: tr) u := by
  intro key
  show u.stored key = (a.writes t key).getD (lastWritten key tr)
  rw [← h key]
  cases hs with
  | act hact => exact DeviceState.act_stored hact key
  | land => rfl
  | arena => rfl

theorem recorded_of_run (h : Run (DeviceState.Step net) (.initial outside now) tr t) :
    Recorded tr t :=
  h.history (fun _ => rfl) fun _ _ _ _ _ hold hs => hold.step hs

/-- Each arena goes through a run of its own. -/
theorem arena_run (h : Run (DeviceState.Step net) (.initial outside now) tr t) (pool : String) :
    ∃ tr', Run (Arena.Step (net.env pool)) (World.fresh (outside pool) (now pool)) tr'
      (t.arenas pool) := by
  induction h with
  | nil => exact ⟨[], .nil⟩
  | @snoc tr t a u _ hs ih =>
    rcases hs.cases_action with ⟨-, hact⟩ | ⟨pool', b, w, -, hstep, -, -, harenas⟩
    · rw [DeviceState.act_arenas hact]
      exact ih
    · rw [harenas]
      by_cases hpool : pool = pool'
      · subst hpool
        obtain ⟨tr', hrun⟩ := ih
        rw [Function.update_self]
        exact ⟨_, hrun.snoc hstep⟩
      · rw [Function.update_of_ne hpool]
        exact ih

/-- The hash of WebCrypto is that of the contract. -/
theorem computeCommitment_eq (pool : String) (c : StoredCommitment) :
    Arena.computeCommitment (net.env pool) c.choice c.salt =
      computeCommitment net.digest c.choice c.salt := by
  unfold Arena.computeCommitment computeCommitment preimage
  rw [net.digest_eq]
  cases c.choice <;> rfl

namespace DeviceState

/-- A build leaves the records of the commitments that are held. -/
theorem CanReveal.build {publicKey poolId : String} {choice : Choice} {roundNumber : ℕ}
    {salt : BytesN 32} {composed : Bool} (h : t.CanReveal net)
    (hguard : RevealGuarded net tr t
      (.buildSubmitCommitment publicKey poolId choice roundNumber salt composed))
    (hact : t.act net (.buildSubmitCommitment publicKey poolId choice roundNumber salt composed) =
      some u) : u.CanReveal net := by
  intro pool p round commitment hheld hbuilt
  rw [act_arenas hact] at hheld ⊢
  rw [loadCommitment_eq, act_stored hact]
  rcases act_built hact hbuilt with hold | hnew
  · have hkept : (DeviceStep.buildSubmitCommitment publicKey poolId choice roundNumber salt
        composed : DeviceStep H).writes t (storageKey pool round) = none := by
      refine Option.eq_none_iff_forall_ne_some.mpr fun written hwritten => ?_
      obtain ⟨⟨key, pool', round'⟩, hparse, hkey⟩ := Option.bind_eq_some_iff.mp hwritten
      dsimp only at hkey
      split_ifs at hkey with hsame
      obtain ⟨rfl, rfl⟩ := storageKey_inj hsame
      exact (hguard.builds _ _ _ _ _ _ rfl key pool round hparse p round commitment hheld).2
        rfl hold
    rw [hkept]
    exact h pool p round commitment hheld hold
  · obtain ⟨_, _, _, _, _, _, key, round', heq, hparse, hcommitment⟩ := hnew
    cases heq
    exact absurd hcommitment
      (hguard.builds _ _ _ _ _ _ rfl key pool round' hparse p round commitment hheld).1

/-- What a step does not write it leaves. -/
theorem CanReveal.unwritten (h : t.CanReveal net) (hact : t.act net a = some u)
    (hwrites : ∀ key, a.writes t key = none)
    (hbuilt : ∀ pool p commitment, u.BuiltHere pool p commitment →
      t.BuiltHere pool p commitment) : u.CanReveal net := by
  intro pool p round commitment hheld hhere
  rw [act_arenas hact] at hheld ⊢
  rw [loadCommitment_eq, act_stored hact, hwrites]
  exact h pool p round commitment hheld (hbuilt pool p commitment hhere)

/-- A confirmed reveal clears its record. -/
theorem CanReveal.confirm {i : ℕ} (h : t.CanReveal net)
    (hguard : RevealGuarded net tr t (.confirm i)) (hact : t.act net (.confirm i) = some u) :
    u.CanReveal net := by
  intro pool p round commitment hheld hbuilt
  rw [act_arenas hact] at hheld ⊢
  rw [loadCommitment_eq, act_stored hact]
  have hold : t.BuiltHere pool p commitment := by
    rcases act_built hact hbuilt with hold | ⟨_, _, _, _, _, _, _, _, heq, -⟩
    · exact hold
    · cases heq
  cases hwrites : (DeviceStep.confirm i : DeviceStep H).writes t (storageKey pool round) with
  | none => exact h pool p round commitment hheld hold
  | some written =>
    obtain ⟨tx, htx, hcleared⟩ := Option.bind_eq_some_iff.mp hwrites
    split_ifs at hcleared with hreveal
    cases hcleared
    obtain ⟨rfl, rfl⟩ := storageKey_inj hreveal.2
    exact .inr ⟨rfl, hguard.clears i tx rfl htx hreveal.1 p commitment hheld hold⟩

/-- What the device does. -/
theorem CanReveal.act (h : t.CanReveal net) (hguard : RevealGuarded net tr t a)
    (hact : t.act net a = some u) : u.CanReveal net := by
  have hbuilt : (∀ publicKey poolId choice roundNumber salt composed,
      a ≠ .buildSubmitCommitment publicKey poolId choice roundNumber salt composed) →
      ∀ pool p commitment, u.BuiltHere pool p commitment → t.BuiltHere pool p commitment := by
    intro hne pool p commitment hhere
    rcases act_built hact hhere with hold | ⟨_, _, _, _, _, _, _, _, heq, -⟩
    · exact hold
    · exact absurd heq (hne _ _ _ _ _ _)
  cases a with
  | buildSubmitCommitment => exact h.build hguard hact
  | confirm => exact h.confirm hguard hact
  | land => cases hact
  | arena => cases hact
  | _ => exact h.unwritten hact (fun _ => rfl) (hbuilt fun _ _ _ _ _ _ => nofun)

/-- What happens at an arena: a commitment that lands there is the one whose record was
    written last. -/
theorem CanReveal.arena {b : Action H} {w : World H} {tr' : List (World H × Action H)}
    {outside : H} {now : ℕ} (h : t.CanReveal net) (hrecorded : Recorded tr t)
    (hguard : RevealGuarded net tr t a) (haction : a.action net t = some (pool, b))
    (hrun : Run (Arena.Step (net.env pool)) (World.fresh outside now) tr' (t.arenas pool))
    (hstep : Arena.Step (net.env pool) (t.arenas pool) b w) (hstorage : u.storage = t.storage)
    (hbuilt : u.built = t.built) (harenas : u.arenas = Function.update t.arenas pool w) :
    u.CanReveal net := by
  intro pool' p round commitment hheld hhere
  have hold : t.BuiltHere pool' p commitment := by
    unfold BuiltHere at hhere ⊢
    rw [← hbuilt]
    exact hhere
  rw [harenas] at hheld ⊢
  rw [hstorage]
  by_cases hpool : pool' = pool
  · subst hpool
    rw [Function.update_self] at hheld ⊢
    rcases (roundInv_of_run hrun).held_step (wellFormed_of_run hrun) hstep hheld with
      ⟨hbefore, hchoice⟩ | ⟨config, auths, hconfig, rfl, rfl⟩
    · exact (h pool' p round commitment hbefore hold).imp_right fun hgone =>
        ⟨hgone.1, hchoice hgone.2⟩
    · obtain ⟨c, hc, hopens⟩ := hguard.lands pool' auths p commitment config haction hconfig hold
      refine .inl ⟨c, ?_, ?_⟩
      · rw [loadCommitment_eq, hrecorded]
        exact hc
      · rw [computeCommitment_eq]
        exact hopens
  · rw [Function.update_of_ne hpool] at hheld ⊢
    exact h pool' p round commitment hheld hold

theorem canReveal_initial : (DeviceState.initial outside now).CanReveal net := by
  rintro pool p round commitment ⟨config, hconfig, -⟩
  cases hconfig

end DeviceState

/-- In the runs that meet the condition at every step, the device can open every commitment
    built on it that a contract holds for the round being played. -/
theorem can_reveal (h : Run (DeviceState.Step net) (.initial outside now) tr t)
    (hC : EachStep (RevealGuarded net) tr) : AlongRun (fun _ t => t.CanReveal net) tr t := by
  refine h.alongRun DeviceState.canReveal_initial (fun tr t a u hrun hold hguard hs => ?_) hC
  rcases hs.cases_action with ⟨-, hact⟩ | ⟨pool, b, w, haction, hstep, hstorage, hbuilt, harenas⟩
  · exact hold.act hguard hact
  · obtain ⟨tr', hrun'⟩ := arena_run hrun pool
    exact hold.arena (recorded_of_run hrun) hguard haction hrun' hstep hstorage hbuilt harenas

/-! ## Sample runs -/

/-- How a unit variant of `Choice` is read. -/
def decodeChoice : ScVal → Option Choice
  | .vec [.symbol "Heads"] => some .Heads
  | .vec [.symbol "Tails"] => some .Tails
  | _ => none

/-- How the arena reads an operation. -/
def readOperation (operation : Operation) : Option Call :=
  match operation.method, operation.args with
  | "submit_commitment", [.address player, .bytes commitment] =>
    some (.submitCommitment player commitment)
  | "reveal_choice", [.address player, choice, .bytes salt] =>
    (decodeChoice choice).map fun choice => .revealChoice player choice salt
  | _, _ => none

/-- The choice is encoded as a symbol, but read as a vector that holds one. -/
theorem readOperation_reveal (account : String → Address) (pool key : String) (choice : Choice)
    (salt : BytesN 32) :
    readOperation (buildRevealChoiceOperation account pool key choice salt) = none := by
  cases choice <;> rfl

/-- The public key of player 11; others belong to player 12. -/
def sampleKey : String := String.ofList ('G' :: List.replicate 55 'A')

def samplePool : String := String.ofList ('C' :: List.replicate 55 'A')

/-- Reference arenas. -/
def sampleArenas : Network VaultState where
  env _ := reference false
  account key := if key = sampleKey then ⟨11⟩ else ⟨12⟩
  digest := sha256OfZeroSalt
  call := readOperation
  digest_eq _ _ := rfl

/-- What happens at one arena, as steps of the system. -/
def arenaSteps (t : DeviceState H) (pool : String) (tr : List (World H × Action H)) :
    List (DeviceState H × DeviceStep H) :=
  tr.map fun e => ({ t with arenas := Function.update t.arenas pool e.1 }, .arena pool e.2)

theorem run_arenaSteps {w w' : World H} {tr' : List (World H × Action H)}
    (h : Run (DeviceState.Step net) (.initial outside now) tr t) (hw : t.arenas pool = w)
    (hrun : Run (Arena.Step (net.env pool)) w tr' w') :
    Run (DeviceState.Step net) (.initial outside now) (arenaSteps t pool tr' ++ tr)
      { t with arenas := Function.update t.arenas pool w' } := by
  induction hrun with
  | nil =>
    rw [← hw, Function.update_eq_self]
    exact h
  | @snoc tr' v b w' _ hstep ih =>
    have hlast : DeviceState.Step net { t with arenas := Function.update t.arenas pool v }
        (.arena pool b) { t with
          arenas := Function.update (Function.update t.arenas pool v) pool w' } :=
      .arena (by dsimp only; rw [Function.update_self]; exact hstep)
    rw [Function.update_idem] at hlast
    exact ih.snoc hlast

/-- The call is a `submit_commitment`. -/
def isCommitment : Action H → Bool
  | .call _ (.submitCommitment _ _) => true
  | _ => false

theorem guarded_arenaSteps {tr' : List (World H × Action H)}
    (hC : EachStep (RevealGuarded net) tr) (hno : ∀ e ∈ tr', isCommitment e.2 = false) :
    EachStep (RevealGuarded net) (arenaSteps t pool tr' ++ tr) := by
  induction tr' with
  | nil => exact hC
  | cons e tr' ih =>
    refine ⟨⟨(fun _ _ _ _ _ _ h => nomatch h), (fun _ _ h => nomatch h), ?_⟩,
      ih fun e' he' => hno e' (List.mem_cons_of_mem _ he')⟩
    intro pool' auths p commitment config haction
    have hcommits : e.2 = .call auths (.submitCommitment p commitment) :=
      (Prod.mk.inj (Option.some.inj haction)).2
    have hnone := hno e List.mem_cons_self
    rw [hcommits] at hnone
    cases hnone

/-- The transaction of player 11 for heads in the first round. -/
def sampleTransaction : DeviceTransaction :=
  ⟨sampleKey, ⟨samplePool, "submit_commitment", [.address ⟨11⟩, .bytes (sampleCommitment .Heads)]⟩,
    samplePool, 1⟩

theorem parse_sample : parseArguments sampleKey samplePool 1 = some (sampleKey, samplePool, 1) := by
  decide +kernel

/-- The device before its first attempt, ... -/
def sampleStart : DeviceState VaultState := .initial (fun _ => VaultState.sample) fun _ => 0

/-- ... with a transaction that has been built, ... -/
def sampleBuilt : DeviceState VaultState := { sampleStart with
  storage := saveCommitment samplePool 1 ⟨.Heads, Vector.replicate 32 0⟩ sampleStart.storage
  built := [sampleTransaction] }

/-- ... and signed. -/
def sampleSent : DeviceState VaultState :=
  { sampleBuilt with status := Function.update sampleBuilt.status 0 .sent }

/-- The arena has come to `w`. -/
def sampleArena (t : DeviceState VaultState) (w : World VaultState) : DeviceState VaultState :=
  { t with arenas := Function.update t.arenas samplePool w }

theorem sampleArena_arenas (t : DeviceState VaultState) (w : World VaultState) :
    (sampleArena t w).arenas samplePool = w := by
  unfold sampleArena
  dsimp only
  rw [Function.update_self]

/-- The transaction has landed. -/
def sampleLanded : DeviceState VaultState :=
  { sampleSent with status := Function.update sampleSent.status 0 .landed }

/-- The build and the signature. -/
def sampleSteps : List (DeviceState VaultState × DeviceStep VaultState) :=
  [(sampleBuilt, .sign 0), (sampleStart, .buildSubmitCommitment sampleKey samplePool .Heads 1
    (Vector.replicate 32 0) true)]

theorem run_sampleSteps :
    Run (DeviceState.Step sampleArenas) sampleStart sampleSteps sampleSent := by
  refine .snoc (.snoc .nil (.act ?_)) (.act ?_)
  · rw [DeviceState.act_build parse_sample]
    rfl
  · show sampleBuilt.move 0 .pending .sent = some sampleSent
    unfold DeviceState.move
    exact if_pos ⟨Nat.zero_lt_one, rfl⟩

theorem guarded_sampleSteps : EachStep (RevealGuarded sampleArenas) sampleSteps := by
  refine ⟨?_, ?_, trivial⟩
  · exact ⟨(fun _ _ _ _ _ _ h => nomatch h), (fun _ _ h => nomatch h),
      (fun _ _ _ _ _ h => nomatch h)⟩
  · refine ⟨?_, (fun _ _ h => nomatch h), (fun _ _ _ _ _ h => nomatch h)⟩
    rintro _ _ _ _ _ _ - _ _ _ - p round commitment ⟨config, hconfig, -⟩
    cases hconfig

theorem sample_land {w w' : World VaultState} (hstep : Arena.Step (reference false) w
    (.call [⟨11⟩] (.submitCommitment ⟨11⟩ (sampleCommitment .Heads))) w') :
    DeviceState.Step sampleArenas (sampleArena sampleSent w) (.land 0)
      (sampleArena sampleLanded w') := by
  have htx : (sampleArena sampleSent w).built[0]? = some sampleTransaction := rfl
  have hcall : sampleArenas.call sampleTransaction.operation =
      some (.submitCommitment ⟨11⟩ (sampleCommitment .Heads)) := rfl
  have hlanded : sampleArena sampleLanded w' = { sampleArena sampleSent w with
      status := Function.update (sampleArena sampleSent w).status 0 .landed
      arenas := Function.update (sampleArena sampleSent w).arenas samplePool w' } := by
    unfold sampleArena sampleLanded
    dsimp only
    rw [Function.update_idem]
  rw [hlanded]
  refine .land htx rfl hcall ?_
  show Arena.Step _ ((sampleArena sampleSent w).arenas samplePool) (.call [sampleArenas.account
    sampleKey] _) w'
  rw [sampleArena_arenas]
  exact hstep

/-- Player 11 commits in the first round, and the commitment lands. -/
theorem exists_landed : ∃ tr t, Run (DeviceState.Step sampleArenas) sampleStart tr t ∧
    EachStep (RevealGuarded sampleArenas) tr ∧
    HoldsCommitment (t.arenas samplePool) ⟨11⟩ 1 (sampleCommitment .Heads) ∧
    t.BuiltHere samplePool ⟨11⟩ (sampleCommitment .Heads) := by
  obtain ⟨tr', w, w', hrun', hstep, hno, ⟨config, hconfig, hround⟩, config', hconfig', hround',
      hcommitment⟩ :
      ∃ tr w w', Run (Arena.Step (reference false)) (World.fresh VaultState.sample 0) tr w ∧
        Arena.Step (reference false) w
          (.call [⟨11⟩] (.submitCommitment ⟨11⟩ (sampleCommitment .Heads))) w' ∧
        (∀ e ∈ tr, isCommitment e.2 = false) ∧ (∃ config ∈ w.storage.config, config.round = 1) ∧
        ∃ config ∈ w'.storage.config, config.round = 1 ∧
          w'.storage.commitment (⟨11⟩, 1) = some (sampleCommitment .Heads) :=
    exists_run_call (sampleJoins 100 ++ [.call [⟨10⟩] (.startRound 60)]) _ _ (by decide +kernel)
  have hrun : Run (DeviceState.Step sampleArenas) sampleStart
      (arenaSteps sampleSent samplePool tr' ++ sampleSteps) (sampleArena sampleSent w) :=
    run_arenaSteps run_sampleSteps rfl hrun'
  have hguard : RevealGuarded sampleArenas (arenaSteps sampleSent samplePool tr' ++ sampleSteps)
      (sampleArena sampleSent w) (.land 0) := by
    refine ⟨(fun _ _ _ _ _ _ h => nomatch h), (fun _ _ h => nomatch h), ?_⟩
    intro pool auths p commitment config₁ haction hconfig₁ _
    obtain ⟨rfl, hcall⟩ := Prod.mk.inj (Option.some.inj haction)
    cases hcall
    change ((sampleArena sampleSent w).arenas samplePool).storage.config = some config₁ at hconfig₁
    rw [sampleArena_arenas] at hconfig₁
    obtain rfl := Option.some.inj (hconfig.symm.trans hconfig₁)
    rw [← recorded_of_run hrun, hround]
    exact ⟨_, loadCommitment_save samplePool 1 ⟨.Heads, Vector.replicate 32 0⟩ _, rfl⟩
  refine ⟨_, _, hrun.snoc (sample_land hstep), ⟨hguard, guarded_arenaSteps guarded_sampleSteps hno⟩,
    ?_, sampleTransaction, List.mem_singleton.mpr rfl, rfl⟩
  rw [sampleArena_arenas]
  exact ⟨config', hconfig', hround', hcommitment⟩

/-- Player 11 can reveal what has landed. -/
theorem can_reveal_sample : ∃ tr t, Run (DeviceState.Step sampleArenas) sampleStart tr t ∧
    HoldsCommitment (t.arenas samplePool) ⟨11⟩ 1 (sampleCommitment .Heads) ∧
    t.BuiltHere samplePool ⟨11⟩ (sampleCommitment .Heads) ∧
    AlongRun (fun _ t => t.CanReveal sampleArenas) tr t := by
  obtain ⟨tr, t, hrun, hguard, hheld, hbuilt⟩ := exists_landed
  exact ⟨tr, t, hrun, hheld, hbuilt, can_reveal hrun hguard⟩

/-- After the commitment has landed, player 11 builds another one, which the wallet never
    signs: the device cannot open what the contract holds any more. -/
theorem not_can_reveal : ∃ tr t, Run (DeviceState.Step sampleArenas) sampleStart tr t ∧
    ¬ t.CanReveal sampleArenas := by
  obtain ⟨tr, t, hrun, -, hheld, tx, htx, hoperation⟩ := exists_landed
  have hbuild : t.act sampleArenas (.buildSubmitCommitment sampleKey samplePool .Tails 1
      (Vector.replicate 32 0) true) = some _ := DeviceState.act_build parse_sample
  refine ⟨_, _, hrun.snoc (.act hbuild), fun h => ?_⟩
  rcases h samplePool ⟨11⟩ 1 (sampleCommitment .Heads) hheld
    ⟨tx, List.mem_append_left _ htx, hoperation⟩ with ⟨c, hc, hopens⟩ | ⟨hnone, -⟩
  · cases (loadCommitment_save ..).symm.trans hc
    exact absurd hopens (by decide)
  · cases (loadCommitment_save ..).symm.trans hnone

end InverseArena.Frontend
