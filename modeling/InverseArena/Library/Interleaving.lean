import InverseArena.Library.Async
import InverseArena.Library.Transition
import Mathlib.Data.Option.Basic
import Mathlib.Logic.Function.Basic

/-!
# Interleaved programs

Programs that run side by side against one shared state. Each step answers one
request of one program, or starts a program, or changes the shared state from
outside. A request may take effect although its caller sees it fail, and a
program that is never answered again has crashed.

Results:
* `Guarded.of_run`, `Guarded.of_run_of_starts`: what holds of the shared state and
  of where each program stands in its protocol, in every state that interleaved
  programs (of a kind) reach.
* `System.run_mono`: a run is one of every server that serves no less.
* `Guarded.request`, `Guarded.absent`: what it says of a program that awaits an
  answer, and of one that has not been started.
* `Exec.follows`: the same for a program that runs alone.
* `exec_run`: a program run against a handler is an execution.
* `Script.perform_step`, `Script.exists_exec`, `Script.exists_run_of_starts`: executed
  moves are steps.
-/

namespace Async

open Transition

variable {ρ : Type} {Ans : ρ → Type} {ε α σ μ C : Type}

/-! ## Servers -/

/-- What serves the requests: the effect of the request `q` of the `i`-th
    program on the shared state together with its answer, and what else can
    change the state. -/
structure Server (Ans : ρ → Type) (σ μ : Type) where
  serves : ℕ → (q : ρ) → σ → Ans q → σ → Prop
  moves : μ → σ → σ → Prop

/-- What becomes of a request: it is served, or served while its answer is lost,
    or refused. -/
inductive Reply (Ans : ρ → Type) (ε : Type) where
  | served (q : ρ) (a : Ans q)
  | lost (q : ρ) (a : Ans q) (e : ε)
  | refused (q : ρ) (e : ε)

namespace Reply

def request : Reply Ans ε → ρ
  | served q _ => q
  | lost q _ _ => q
  | refused q _ => q

/-- The request, if it took effect. -/
def effective : Reply Ans ε → Option ρ
  | served q _ => some q
  | lost q _ _ => some q
  | refused _ _ => none

/-- What the caller sees. -/
def answer : (r : Reply Ans ε) → Except ε (Ans r.request)
  | served _ a => .ok a
  | lost _ _ e => .error e
  | refused _ e => .error e

theorem request_of_effective {r : Reply Ans ε} {q : ρ} (h : r.effective = some q) :
    r.request = q := by
  cases r with
  | served q a => exact Option.some.inj h
  | lost q a e => exact Option.some.inj h
  | refused q e => cases h

/-- A request that is answered has taken effect. -/
theorem effective_of_answer {r : Reply Ans ε} {a : Ans r.request} (h : r.answer = .ok a) :
    r.effective = some r.request := by
  cases r with
  | served q a => rfl
  | lost q a e => cases h
  | refused q e => cases h

end Reply

inductive Server.Replies (S : Server Ans σ μ) (i : ℕ) : σ → Reply Ans ε → σ → Prop
  | served {s q a s'} : S.serves i q s a s' → Replies S i s (.served q a) s'
  | lost {s q a s' e} : S.serves i q s a s' → Replies S i s (.lost q a e) s'
  | refused {s q e} : Replies S i s (.refused q e) s

/-! ## One program alone -/

/-- The program is answered as the list says and ends. -/
inductive Exec (S : Server Ans σ μ) (i : ℕ) :
    Async Ans ε α → σ → List (Reply Ans ε) → Except ε α → σ → Prop
  | done {r s} : Exec S i (.done r) s [] r s
  | await {s s' t : σ} {x : Reply Ans ε} {k : Except ε (Ans x.request) → Async Ans ε α}
      {rs r} : S.Replies i s x s' → Exec S i (k x.answer) s' rs r t →
      Exec S i (.await x.request k) s (x :: rs) r t

/-! ## Programs side by side -/

/-- The shared state and the programs that have been started, each as what is
    left of it. -/
structure System (Ans : ρ → Type) (ε α σ : Type) where
  shared : σ
  running : ℕ → Option (Async Ans ε α)

inductive Event (Ans : ρ → Type) (ε C μ : Type) where
  | start (i : ℕ) (c : C)
  | reply (i : ℕ) (r : Reply Ans ε)
  | moved (m : μ)

variable (program : C → Async Ans ε α) (S : Server Ans σ μ)

inductive System.Step : System Ans ε α σ → Event Ans ε C μ → System Ans ε α σ → Prop
  | start {t i c} : t.running i = none →
      Step t (.start i c) { t with running := Function.update t.running i (some (program c)) }
  | reply {t i s'} {r : Reply Ans ε} {k : Except ε (Ans r.request) → Async Ans ε α} :
      t.running i = some (.await r.request k) → S.Replies i t.shared r s' →
      Step t (.reply i r) ⟨s', Function.update t.running i (some (k r.answer))⟩
  | moved {t m s'} : S.moves m t.shared s' → Step t (.moved m) { t with shared := s' }

/-- Nothing has been started. -/
def System.idle (s : σ) : System Ans ε α σ := ⟨s, fun _ => none⟩

/-- The same run with a server that serves no less. -/
theorem System.run_mono {program : C → Async Ans ε α} {S : Server Ans σ μ} (S' : Server Ans σ μ)
    (hserves : ∀ {i q s a s'}, S.serves i q s a s' → S'.serves i q s a s')
    (hmoves : ∀ {m s s'}, S.moves m s s' → S'.moves m s s') {t u : System Ans ε α σ}
    {tr : List (System Ans ε α σ × Event Ans ε C μ)} (h : Run (System.Step program S) t tr u) :
    Run (System.Step program S') t tr u := by
  induction h with
  | nil => exact .nil
  | snoc _ hs ih =>
    refine .snoc ih ?_
    cases hs with
    | start hi => exact .start hi
    | reply hi hr =>
      refine .reply hi ?_
      cases hr with
      | served hs => exact .served (hserves hs)
      | lost hs => exact .lost (hserves hs)
      | refused => exact .refused
    | moved hm => exact .moved (hmoves hm)

/-! ## Invariants -/

variable {γ : Type} (P : Protocol Ans ε γ) (first : C → γ)

/-- The server answers what the protocol expects, and a property of the shared
    state and of the places of the programs is kept by each reply to an allowed
    request. -/
structure Preserved (I : σ → (ℕ → Option γ) → Prop) : Prop where
  answers : ∀ {i q s a s'}, S.serves i q s a s' → P.answers q a
  start : ∀ {s gs i} (c : C), I s gs → gs i = none →
    I s (Function.update gs i (some (first c)))
  reply : ∀ {s gs i g} {r : Reply Ans ε} {s'}, I s gs → gs i = some g → P.allowed g r.request →
    S.Replies i s r s' → I s' (Function.update gs i (some (P.next g r.request r.answer)))
  moved : ∀ {s gs m s'}, I s gs → S.moves m s s' → I s' gs

/-- Each program follows the protocol from where it stands, and the property `I`
    holds of the shared state and of these places. -/
def Guarded (I : σ → (ℕ → Option γ) → Prop) (Q : γ → Except ε α → Prop)
    (t : System Ans ε α σ) : Prop :=
  ∃ gs, I t.shared gs ∧
    ∀ i, Option.Rel (fun p g => Async.Follows P p g Q) (t.running i) (gs i)

variable {program S P first} {I : σ → (ℕ → Option γ) → Prop} {Q : γ → Except ε α → Prop}
variable {s : σ} {t u : System Ans ε α σ}

theorem rel_none {β δ : Type} {R : β → δ → Prop} {d : Option δ} (h : Option.Rel R none d) :
    d = none := by
  cases h with
  | none => rfl

theorem rel_update {β δ : Type} {R : β → δ → Prop} {f : ℕ → Option β} {f' : ℕ → Option δ}
    (h : ∀ i, Option.Rel R (f i) (f' i)) (i : ℕ) {b : β} {d : δ} (hb : R b d) (j : ℕ) :
    Option.Rel R (Function.update f i (some b) j) (Function.update f' i (some d) j) := by
  by_cases hj : j = i
  · subst hj
    rw [Function.update_self, Function.update_self]
    exact .some hb
  · rw [Function.update_of_ne hj, Function.update_of_ne hj]
    exact h j

theorem Guarded.idle (h : I s fun _ => none) :
    Guarded P I Q (.idle s : System Ans ε α σ) :=
  ⟨fun _ => none, h, fun _ => .none⟩

theorem follows_reply {q : ρ} {k : Except ε (Ans q) → Async Ans ε α} {g : γ}
    (h : (await q k).Follows P g Q) {r : Reply Ans ε} (hr : r.request = q)
    (hanswers : ∀ a, r = .served q a → P.answers q a) :
    (k (hr ▸ r.answer)).Follows P (P.next g q (hr ▸ r.answer)) Q := by
  obtain ⟨-, hok, herr⟩ := h
  subst hr
  cases r with
  | served q a => exact hok a (hanswers a rfl)
  | lost q a e => exact herr e
  | refused q e => exact herr e

theorem Server.Replies.answers {i : ℕ} {r : Reply Ans ε} {s' : σ}
    (hP : ∀ {i q s a s'}, S.serves i q s a s' → P.answers q a) (h : S.Replies i s r s') :
    ∀ a, r = .served r.request a → P.answers r.request a := by
  intro a ha
  cases h with
  | served hs =>
    cases ha
    exact hP hs
  | lost hs => cases ha
  | refused => cases ha

/-- A step that starts a program which keeps to the protocol, if it starts one. -/
theorem Guarded.step_of_start (hI : Preserved S P first I) (hg : Guarded P I Q t)
    {ev : Event Ans ε C μ} (hstart : ∀ i c, ev = .start i c → (program c).Follows P (first c) Q)
    (hs : System.Step program S t ev u) : Guarded P I Q u := by
  obtain ⟨gs, hinv, hrel⟩ := hg
  cases hs with
  | @start i c hi =>
    have hfree : gs i = none := rel_none (hi ▸ hrel i)
    exact ⟨_, hI.start c hinv hfree, rel_update hrel i (hstart i c rfl)⟩
  | @reply i s' r k hi hr =>
    have h := hrel i
    rw [hi] at h
    cases hgi : gs i with
    | none =>
      rw [hgi] at h
      cases h
    | some g =>
      rw [hgi] at h
      cases h with
      | some hf =>
        have hallowed : P.allowed g r.request := hf.1
        exact ⟨_, hI.reply hinv hgi hallowed hr,
          rel_update hrel i (follows_reply hf rfl (hr.answers hI.answers))⟩
  | moved hm => exact ⟨gs, hI.moved hinv hm, hrel⟩

theorem Guarded.step (hI : Preserved S P first I)
    (hprogram : ∀ c, (program c).Follows P (first c) Q) (hg : Guarded P I Q t)
    {ev : Event Ans ε C μ} (hs : System.Step program S t ev u) : Guarded P I Q u :=
  hg.step_of_start hI (fun _ c _ => hprogram c) hs

/-- The invariant rule for interleaved programs. -/
theorem Guarded.of_run (hI : Preserved S P first I)
    (hprogram : ∀ c, (program c).Follows P (first c) Q) (h0 : I s fun _ => none)
    {tr : List (System Ans ε α σ × Event Ans ε C μ)}
    (hrun : Run (System.Step program S) (.idle s) tr t) : Guarded P I Q t :=
  hrun.invariant (fun _ _ _ hg hs => hg.step hI hprogram hs) (.idle h0)

/-- The invariant rule for runs that start only programs with `A`. -/
theorem Guarded.of_run_of_starts {A : C → Prop} (hI : Preserved S P first I)
    (hprogram : ∀ c, A c → (program c).Follows P (first c) Q) (h0 : I s fun _ => none)
    {tr : List (System Ans ε α σ × Event Ans ε C μ)}
    (hrun : Run (System.Step program S) (.idle s) tr t)
    (hA : ∀ e ∈ tr, ∀ i c, e.2 = .start i c → A c) : Guarded P I Q t :=
  hrun.invariant_of_forall (C := fun _ ev => ∀ i c, ev = .start i c → A c)
    (fun _ _ _ hg hstart hs =>
      hg.step_of_start hI (fun i c hev => hprogram c (hstart i c hev)) hs) hA (.idle h0)

/-- A program that has not been started has no place. -/
theorem Guarded.absent (hg : Guarded P I Q t) {i : ℕ} (hi : t.running i = none) :
    ∃ gs, I t.shared gs ∧ gs i = none := by
  obtain ⟨gs, hinv, hrel⟩ := hg
  exact ⟨gs, hinv, rel_none (hi ▸ hrel i)⟩

/-- A program that awaits an answer is allowed to make its request. -/
theorem Guarded.request (hg : Guarded P I Q t) {i : ℕ} {q : ρ}
    {k : Except ε (Ans q) → Async Ans ε α} (hi : t.running i = some (.await q k)) :
    ∃ gs g, I t.shared gs ∧ gs i = some g ∧ P.allowed g q := by
  obtain ⟨gs, hinv, hrel⟩ := hg
  have h := hrel i
  rw [hi] at h
  cases hgi : gs i with
  | none =>
    rw [hgi] at h
    cases h
  | some g =>
    rw [hgi] at h
    cases h with
    | some hf => exact ⟨gs, g, hinv, hgi, hf.1⟩

/-- The invariant rule for a program that runs alone; the invariant may speak of
    the replies so far. -/
theorem Exec.follows {J : List (Reply Ans ε) → σ → γ → Prop} {i : ℕ} {rs : List (Reply Ans ε)}
    {r : Except ε α} {p : Async Ans ε α} {s' : σ} {g : γ} {before : List (Reply Ans ε)}
    (hanswers : ∀ {i q s a s'}, S.serves i q s a s' → P.answers q a)
    (hJ : ∀ {before s g} {reply : Reply Ans ε} {s'}, J before s g → P.allowed g reply.request →
      S.Replies i s reply s' →
      J (before ++ [reply]) s' (P.next g reply.request reply.answer))
    (h : Exec S i p s rs r s') (hf : p.Follows P g Q) (h0 : J before s g) :
    ∃ g', J (before ++ rs) s' g' ∧ Q g' r := by
  induction h generalizing g before with
  | done =>
    refine ⟨g, ?_, hf⟩
    rw [List.append_nil]
    exact h0
  | @await s s' t x k rs r hr hrest ih =>
    have hhead := hJ h0 hf.1 hr
    have htail := follows_reply hf rfl (hr.answers hanswers)
    obtain ⟨g', hlast, hQ⟩ := ih htail hhead
    rw [List.append_assoc] at hlast
    exact ⟨g', hlast, hQ⟩

/-- A handler that serves what `serve` serves and refuses the rest with `e`. -/
def answering (serve : (q : ρ) → σ → Option (Ans q × σ)) (e : ε) (q : ρ) (s : σ) :
    Except ε (Ans q) × σ :=
  match serve q s with
  | some (a, s') => (.ok a, s')
  | none => (.error e, s)

/-- A request that is served is answered. -/
theorem run_answering {serve : (q : ρ) → σ → Option (Ans q × σ)} {e : ε} {q : ρ} {a : Ans q}
    {s s' : σ} (h : serve q s = some (a, s')) :
    (request q : Async Ans ε (Ans q)).run (answering serve e) s = (.ok a, s') := by
  show answering serve e q s = _
  unfold answering
  rw [h]

/-- A program run against a server is an execution. -/
theorem exec_run {i : ℕ} {serve : (q : ρ) → σ → Option (Ans q × σ)}
    (hserve : ∀ {q s a s'}, serve q s = some (a, s') → S.serves i q s a s') (e : ε)
    (p : Async Ans ε α) (s : σ) :
    ∃ rs, Exec S i p s rs (p.run (answering serve e) s).1 (p.run (answering serve e) s).2 := by
  induction p generalizing s with
  | done r => exact ⟨[], .done⟩
  | await q k ih =>
    cases hq : serve q s with
    | some r =>
      have hrun : (await q k).run (answering serve e) s =
          (k (.ok r.1)).run (answering serve e) r.2 := by
        show (k (answering serve e q s).1).run _ (answering serve e q s).2 = _
        unfold answering
        rw [hq]
      obtain ⟨rs, hrest⟩ := ih (.ok r.1) r.2
      rw [hrun]
      exact ⟨_, .await (x := .served q r.1) (.served (hserve hq)) hrest⟩
    | none =>
      have hrun : (await q k).run (answering serve e) s =
          (k (.error e)).run (answering serve e) s := by
        show (k (answering serve e q s).1).run _ (answering serve e q s).2 = _
        unfold answering
        rw [hq]
      obtain ⟨rs, hrest⟩ := ih (.error e) s
      rw [hrun]
      exact ⟨_, .await (x := .refused q e) .refused hrest⟩

/-! ## Executing interleavings -/

/-- How to serve requests, from hints where the server leaves a choice. -/
structure Script (S : Server Ans σ μ) (θ : Type) where
  serve : θ → ℕ → (q : ρ) → σ → Option (Ans q × σ)
  move : μ → σ → Option σ
  serve_sound : ∀ {x i q s a s'}, serve x i q s = some (a, s') → S.serves i q s a s'
  move_sound : ∀ {m s s'}, move m s = some s' → S.moves m s s'

/-- What to do next: start a program, serve one, lose an answer, refuse one. -/
inductive Move (ε C μ θ : Type) where
  | start (i : ℕ) (c : C)
  | serve (i : ℕ) (hint : θ)
  | lose (i : ℕ) (hint : θ) (e : ε)
  | refuse (i : ℕ) (e : ε)
  | moved (m : μ)

variable {θ : Type}

/-- Runs a program alone; a missing hint means that the request is refused. -/
def Script.alone (X : Script S θ) (e : ε) (i : ℕ) :
    List (Option θ) → Async Ans ε α → σ → Option (List (Reply Ans ε) × Except ε α × σ)
  | _, .done r, s => some ([], r, s)
  | [], .await _ _, _ => none
  | none :: hints, .await q k, s =>
    (X.alone e i hints (k (.error e)) s).map fun r => (.refused q e :: r.1, r.2)
  | some x :: hints, .await q k, s =>
    (X.serve x i q s).bind fun a =>
      (X.alone e i hints (k (.ok a.1)) a.2).map fun r => (.served q a.1 :: r.1, r.2)

theorem Script.alone_exec (X : Script S θ) (e : ε) (i : ℕ) :
    ∀ (hints : List (Option θ)) {p : Async Ans ε α} {s : σ} {rs : List (Reply Ans ε)}
      {r : Except ε α} {s' : σ},
      X.alone e i hints p s = some (rs, r, s') → Exec S i p s rs r s' := by
  intro hints
  induction hints with
  | nil =>
    intro p s rs r s' h
    cases p with
    | done r =>
      cases h
      exact .done
    | await q k => cases h
  | cons x hints ih =>
    intro p s rs r s' h
    cases p with
    | done r =>
      cases h
      exact .done
    | await q k =>
      cases x with
      | none =>
        obtain ⟨⟨rs', r', t⟩, hrest, heq⟩ := Option.map_eq_some_iff.mp h
        cases heq
        exact .await (x := .refused q e) .refused (ih hrest)
      | some x =>
        obtain ⟨⟨a, t⟩, hserve, hmap⟩ := Option.bind_eq_some_iff.mp h
        obtain ⟨⟨rs', r', t'⟩, hrest, heq⟩ := Option.map_eq_some_iff.mp hmap
        cases heq
        exact .await (x := .served q a) (.served (X.serve_sound hserve)) (ih hrest)

/-- What is decided on an executed program holds of an execution. -/
theorem Script.exists_exec (X : Script S θ) (e : ε) (i : ℕ) (hints : List (Option θ))
    {p : Async Ans ε α} {s : σ} {T : List (Reply Ans ε) → Except ε α → σ → Prop}
    (h : ∃ r ∈ X.alone e i hints p s, T r.1 r.2.1 r.2.2) :
    ∃ rs r s', Exec S i p s rs r s' ∧ T rs r s' := by
  obtain ⟨⟨rs, r, s'⟩, hr, hT⟩ := h
  exact ⟨rs, r, s', X.alone_exec e i hints hr, hT⟩

/-- The step that a move takes, if it is possible. -/
def Script.perform (X : Script S θ) (program : C → Async Ans ε α) :
    Move ε C μ θ → System Ans ε α σ → Option (Event Ans ε C μ × System Ans ε α σ)
  | .start i c, t =>
    match t.running i with
    | none => some (.start i c, ⟨t.shared, Function.update t.running i (some (program c))⟩)
    | some _ => none
  | .serve i hint, t =>
    match t.running i with
    | some (.await q k) => (X.serve hint i q t.shared).map fun r =>
      (.reply i (.served q r.1), ⟨r.2, Function.update t.running i (some (k (.ok r.1)))⟩)
    | _ => none
  | .lose i hint e, t =>
    match t.running i with
    | some (.await q k) => (X.serve hint i q t.shared).map fun r =>
      (.reply i (.lost q r.1 e), ⟨r.2, Function.update t.running i (some (k (.error e)))⟩)
    | _ => none
  | .refuse i e, t =>
    match t.running i with
    | some (.await q k) => some (.reply i (.refused q e),
        ⟨t.shared, Function.update t.running i (some (k (.error e)))⟩)
    | _ => none
  | .moved m, t => (X.move m t.shared).map fun s => (.moved m, ⟨s, t.running⟩)

theorem Script.perform_step (X : Script S θ) (m : Move ε C μ θ) (t : System Ans ε α σ)
    (ev : Event Ans ε C μ) (u : System Ans ε α σ) (h : X.perform program m t = some (ev, u)) :
    System.Step program S t ev u := by
  cases m with
  | start i c =>
    simp only [Script.perform] at h
    split at h
    · rename_i hi
      cases h
      exact .start hi
    · cases h
  | serve i hint =>
    simp only [Script.perform] at h
    split at h
    · rename_i q k hi
      obtain ⟨⟨a, s'⟩, hserve, heq⟩ := Option.map_eq_some_iff.mp h
      cases heq
      exact .reply (r := .served q a) hi (.served (X.serve_sound hserve))
    · cases h
  | lose i hint e =>
    simp only [Script.perform] at h
    split at h
    · rename_i q k hi
      obtain ⟨⟨a, s'⟩, hserve, heq⟩ := Option.map_eq_some_iff.mp h
      cases heq
      exact .reply (r := .lost q a e) hi (.lost (X.serve_sound hserve))
    · cases h
  | refuse i e =>
    simp only [Script.perform] at h
    split at h
    · rename_i q k hi
      cases h
      exact .reply (r := .refused q e) hi .refused
    · cases h
  | moved m =>
    obtain ⟨s', hmove, heq⟩ := Option.map_eq_some_iff.mp h
    cases heq
    exact .moved (X.move_sound hmove)

/-- What is decided on executed moves that start programs with `A` holds of a run that does. -/
theorem Script.exists_run_of_starts (X : Script S θ) {A : C → Prop} {ms : List (Move ε C μ θ)}
    (hms : ∀ m ∈ ms, ∀ i c, m = .start i c → A c) {t : System Ans ε α σ}
    {T : List (System Ans ε α σ × Event Ans ε C μ) → System Ans ε α σ → Prop}
    (h : ∃ r ∈ replay (X.perform program) ms [] t, T r.1 r.2) :
    ∃ tr u, Run (System.Step program S) t tr u ∧ (∀ e ∈ tr, ∀ i c, e.2 = .start i c → A c) ∧
      T tr u := by
  obtain ⟨⟨tr, u⟩, hr, hT⟩ := h
  have hlabel : ∀ (m : Move ε C μ θ) t ev u, (∀ i c, m = .start i c → A c) →
      X.perform program m t = some (ev, u) → ∀ i c, ev = .start i c → A c := by
    rintro m t _ u hm hperform i c rfl
    cases m with
    | start j c' =>
      simp only [Script.perform] at hperform
      split at hperform
      · cases hperform
        exact hm i c rfl
      · cases hperform
    | serve | lose =>
      simp only [Script.perform] at hperform
      split at hperform
      · obtain ⟨_, -, heq⟩ := Option.map_eq_some_iff.mp hperform
        cases heq
      · cases hperform
    | refuse =>
      simp only [Script.perform] at hperform
      split at hperform
      · cases hperform
      · cases hperform
    | moved =>
      obtain ⟨_, -, heq⟩ := Option.map_eq_some_iff.mp hperform
      cases heq
  exact ⟨tr, u, .of_replay X.perform_step ms .nil hr,
    forall_label_of_replay hlabel ms hms (fun _ he => absurd he List.not_mem_nil) hr, hT⟩

end Async
