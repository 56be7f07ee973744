/-
**How much a rotation puts into the channel.**

The frame of a rotation is sent once and then again with each timeout that is not the last.  The
channel may lose what is sent, or deliver it late, but it makes no copies, so a payload reaches the
receiver at most as often as it was sent, and what the receiver answers is bounded by that in turn.

The proof keeps account of each payload: the frames in the channel that carry it, those that have
been received, and those that the state machine may still send.  Only the start of a rotation adds
to the sum.

A rotation always comes to an end, too.  A few steps are enough in every state to make the sender
ready for the next rotation, and as long as it may send again, these can be such that the receiver
gets the key.

Main definitions:

* `Bind19.RotationLink.budget` — how often the state machine may still send a payload;
* `Bind19.RotationLink.Traffic` — the account of each payload;
* `Bind19.RotationLink.Spent` — nothing comes of a rotation any more.

Main results:

* `Bind19.RotationLink.Traffic.step` — what one step preserves;
* `Bind19.RotationLink.run_traffic` — **what is sent is bounded by the rotations begun**;
* `Bind19.RotationLink.run_settles` — **every rotation can come to an end**.
-/

import Bind19.RotationChannel
import Mathlib.Data.List.Perm.Basic

set_option relaxedAutoImplicit false
set_option autoImplicit false

namespace Bind19

open ByteLayout

namespace KeyRotationPayload

/-- A payload is all that it was read from. -/
theorem encode_of_decode {buf : List UInt8} {payload : KeyRotationPayload}
    (h : decode buf = .ok payload) : payload.encode = buf := by
  rw [decode] at h
  split at h
  · cases h
  · rename_i hlen
    cases h
    have hle : 0 + nonceSize ≤ buf.length := by omega
    rw [encode, toList_readArray hle]
    exact List.take_append_drop nonceSize buf

theorem encode_inj {p q : KeyRotationPayload} (h : p.encode = q.encode) : p = q := by
  have hdecode := decode_encode p
  rw [h, decode_encode q] at hdecode
  exact (Except.ok.inj hdecode).symm

end KeyRotationPayload

namespace KeyRotationStateMachine

/-- A timeout sends the pending payload again, as long as that is allowed. -/
theorem retried_of_handleTimeout {m m' : KeyRotationStateMachine} {sent : KeyRotationPayload}
    (h : m.handleTimeout = some (.retry sent, m')) :
    ∃ retries, m.state = .pending retries ∧ retries < maxRetries ∧
      m.pendingPayload = some sent ∧ m' = { m with state := .pending (retries + 1) } := by
  rw [handleTimeout] at h
  cases hstate : m.state with
  | pending retries =>
      rw [hstate] at h
      dsimp only at h
      split at h
      · rename_i hlt
        cases hpayload : m.pendingPayload with
        | none =>
            rw [hpayload] at h
            cases h
        | some payload =>
            rw [hpayload] at h
            cases h
            exact ⟨retries, rfl, hlt, rfl, rfl⟩
      · cases h
  | _ =>
      rw [hstate] at h
      cases h

end KeyRotationStateMachine

namespace RotationLink

variable {s s' : RotationLink} {a : LinkAction} {payload : KeyRotationPayload}

/-! ### Taking a message out of the channel -/

theorem count_eraseIdx_of_getElem? {α : Type} [BEq α] {xs : List α} {x : α} {i : ℕ}
    (h : xs[i]? = some x) (y : α) :
    xs.count y = (xs.eraseIdx i).count y + if x == y then 1 else 0 := by
  obtain ⟨hlt, rfl⟩ := List.getElem?_eq_some_iff.1 h
  rw [← (List.getElem_cons_eraseIdx_perm hlt).count_eq y, List.count_cons]

theorem count_eraseIdx_le {α : Type} [BEq α] (xs : List α) (i : ℕ) (y : α) :
    (xs.eraseIdx i).count y ≤ xs.count y :=
  (List.eraseIdx_sublist xs i).count_le y

/-! ### The account of a payload -/

/-- How often the state machine may still send a payload. -/
def budget (m : KeyRotationStateMachine) (payload : KeyRotationPayload) : ℕ :=
  match m.state with
  | .pending retries =>
      if m.pendingPayload = some payload then maxRetries.toNat - retries.toNat else 0
  | _ => 0

/-- How often the frame of one rotation is sent at most. -/
def maxTransmissions : ℕ := maxRetries.toNat + 1

theorem budget_of_move {m m' : KeyRotationStateMachine} {op : RotationOp}
    (hmove : RotationMove m op m') (hop : ∀ payload, op ≠ .startRotation payload)
    (payload : KeyRotationPayload) : budget m' payload ≤ budget m payload := by
  cases hmove with
  | refused => exact Nat.le_refl _
  | started p => exact absurd rfl (hop p)
  | retried retries p hfrom hlt hpayload =>
      have hnext : (retries + 1).toNat = retries.toNat + 1 := by
        have : retries.toNat < 3 := UInt8.lt_iff_toNat_lt.1 hlt
        rw [UInt8.toNat_add]
        exact Nat.mod_eq_of_lt (by change retries.toNat + 1 < 256; omega)
      rw [budget, budget, hfrom]
      dsimp only
      rw [hnext]
      split
      · omega
      · exact Nat.le_refl _
  | acked | gaveUp | reset | completed => exact Nat.zero_le _

/-- The account of each payload: what is in the channel, what has been received and what may still
be sent. -/
structure Traffic (s : RotationLink) : Prop where
  pending : ∀ retries, s.machine.state = .pending retries →
    s.machine.pendingPayload.isSome = true
  sent : ∀ payload,
    s.frames.count payload.encode + s.received.count payload + budget s.machine payload ≤
      maxTransmissions * s.begun.count payload
  acks : ∀ payload, s.acks.count payload ≤ s.received.count payload

theorem traffic_init : init.Traffic where
  pending _ h := by cases h
  sent _ := Nat.zero_le _
  acks _ := Nat.le_refl _

/-- A move of the state machine that sends nothing. -/
theorem Traffic.move (h : s.Traffic) {op : RotationOp} {machine : KeyRotationStateMachine}
    (hmove : RotationMove s.machine op machine) (hop : ∀ payload, op ≠ .startRotation payload) :
    Traffic { s with machine } where
  pending retries hstate := by
    cases hmove with
    | refused => exact h.pending retries hstate
    | started p => exact absurd rfl (hop p)
    | retried retries' p hfrom => exact h.pending retries' hfrom
    | acked | gaveUp | reset | completed => cases hstate
  sent payload :=
    Nat.le_trans (Nat.add_le_add_left (budget_of_move hmove hop payload) _) (h.sent payload)
  acks := h.acks

theorem count_encode_concat (frames : List (List UInt8)) (p q : KeyRotationPayload) :
    (frames ++ [p.encode]).count q.encode = frames.count q.encode + if p = q then 1 else 0 := by
  rw [List.count_append, List.count_singleton]
  by_cases hpq : p = q
  · rw [hpq, if_pos (beq_self_eq_true _), if_pos rfl]
  · have hne : ¬ (p.encode == q.encode) = true := fun heq =>
      hpq (KeyRotationPayload.encode_inj (beq_iff_eq.1 heq))
    rw [if_neg hne, if_neg hpq]

theorem count_concat (ps : List KeyRotationPayload) (p q : KeyRotationPayload) :
    (ps ++ [p]).count q = ps.count q + if p = q then 1 else 0 := by
  rw [List.count_append, List.count_singleton]
  simp only [beq_iff_eq]

/-- The start of a rotation adds to the account of its payload what may be sent of it. -/
theorem Traffic.start (h : s.Traffic) (payload : KeyRotationPayload) :
    Traffic { s with
      machine := { state := .pending 0, pendingPayload := some payload }
      frames := s.frames ++ [payload.encode]
      begun := s.begun ++ [payload] } where
  pending _ _ := rfl
  sent p := by
    have hsent := h.sent p
    dsimp only
    rw [count_encode_concat, count_concat, Nat.mul_add]
    by_cases hp : payload = p
    · have hbudget : budget { state := .pending 0, pendingPayload := some payload } p =
          maxRetries.toNat := by
        rw [budget]
        exact if_pos (congrArg some hp)
      rw [hbudget, if_pos hp]
      rw [maxTransmissions] at hsent ⊢
      omega
    · have hbudget : budget { state := .pending 0, pendingPayload := some payload } p = 0 := by
        rw [budget]
        exact if_neg fun heq => hp (Option.some.inj heq)
      rw [hbudget, if_neg hp]
      omega
  acks := h.acks

/-- A timeout moves one transmission from the budget into the channel. -/
theorem Traffic.retry (h : s.Traffic) {machine : KeyRotationStateMachine}
    {sent : KeyRotationPayload} (hretry : s.machine.handleTimeout = some (.retry sent, machine)) :
    Traffic { s with machine, frames := s.frames ++ [sent.encode] } where
  pending _ _ := by
    obtain ⟨retries, -, -, hpayload, rfl⟩ :=
      KeyRotationStateMachine.retried_of_handleTimeout hretry
    change s.machine.pendingPayload.isSome = true
    rw [hpayload]
    rfl
  sent p := by
    obtain ⟨retries, hfrom, hlt, hpayload, rfl⟩ :=
      KeyRotationStateMachine.retried_of_handleTimeout hretry
    have hsent := h.sent p
    have hthree : retries.toNat < 3 := UInt8.lt_iff_toNat_lt.1 hlt
    have hmax : maxRetries.toNat = 3 := rfl
    have hnext : (retries + 1).toNat = retries.toNat + 1 := by
      rw [UInt8.toNat_add]
      exact Nat.mod_eq_of_lt (by change retries.toNat + 1 < 256; omega)
    rw [budget, hfrom, hpayload] at hsent
    rw [budget, hpayload]
    dsimp only at hsent ⊢
    rw [count_encode_concat, hnext]
    by_cases hp : sent = p
    · rw [if_pos (congrArg some hp)] at hsent
      rw [if_pos hp, if_pos (congrArg some hp)]
      omega
    · rw [if_neg fun heq => hp (Option.some.inj heq)] at hsent
      rw [if_neg hp, if_neg fun heq => hp (Option.some.inj heq)]
      omega
  acks := h.acks

/-- The receiver gets a frame and answers it. -/
theorem Traffic.receive (h : s.Traffic) {i : ℕ} {bytes : List UInt8}
    (hget : s.frames[i]? = some bytes)
    (hdecode : KeyRotationPayload.decode bytes = .ok payload) :
    Traffic { s with
      frames := s.frames.eraseIdx i
      acks := s.acks ++ [payload]
      received := s.received ++ [payload] } where
  pending := h.pending
  sent p := by
    have hsent := h.sent p
    have hbytes := KeyRotationPayload.encode_of_decode hdecode
    have hcount := count_eraseIdx_of_getElem? hget p.encode
    dsimp only
    rw [count_concat]
    by_cases hp : payload = p
    · have hmatch : (bytes == p.encode) = true := beq_iff_eq.2 (by rw [← hbytes, hp])
      rw [if_pos hmatch] at hcount
      rw [if_pos hp]
      omega
    · rw [if_neg hp]
      omega
  acks p := by
    have hacks := h.acks p
    dsimp only
    rw [count_concat, count_concat]
    omega

theorem Traffic.lose (h : s.Traffic) (i : ℕ) :
    Traffic { s with frames := s.frames.eraseIdx i } where
  pending := h.pending
  sent p := by
    have hsent := h.sent p
    have hcount := count_eraseIdx_le s.frames i p.encode
    dsimp only
    omega
  acks := h.acks

theorem Traffic.loseAck (h : s.Traffic) (i : ℕ) :
    Traffic { s with acks := s.acks.eraseIdx i } where
  pending := h.pending
  sent := h.sent
  acks p := Nat.le_trans (count_eraseIdx_le s.acks i p) (h.acks p)

/-- **What one step preserves.** -/
theorem Traffic.step (h : s.Traffic) (hstep : s.step a = some s') : s'.Traffic := by
  cases a with
  | timeout =>
      rw [RotationLink.step] at hstep
      cases htimeout : s.machine.handleTimeout with
      | none =>
          rw [htimeout] at hstep
          cases hstep
      | some answer =>
          obtain ⟨result, machine⟩ := answer
          have hmove : RotationMove s.machine .handleTimeout machine :=
            KeyRotationStateMachine.apply_cases (by
              rw [KeyRotationStateMachine.apply, htimeout]
              rfl)
          rw [htimeout] at hstep
          cases result with
          | retry sent =>
              obtain rfl := Option.some.inj hstep
              exact h.retry htimeout
          | failed | ignored =>
              obtain rfl := Option.some.inj hstep
              exact h.move hmove (by simp)
  | deliverFrame i =>
      rw [RotationLink.step] at hstep
      cases hget : s.frames[i]? with
      | none =>
          rw [hget] at hstep
          cases hstep
      | some bytes =>
          rw [hget] at hstep
          dsimp only at hstep
          cases hdecode : KeyRotationPayload.decode bytes with
          | ok payload =>
              rw [hdecode] at hstep
              obtain rfl := Option.some.inj hstep
              exact h.receive hget hdecode
          | error e =>
              rw [hdecode] at hstep
              obtain rfl := Option.some.inj hstep
              exact h.lose i
  | start payload =>
      cases step_cases hstep with
      | started => exact h.start payload
      | moved _ op machine hmove hop => exact h.move hmove hop
      | frameLost _ i => exact h.lose i
  | complete | reset | loseFrame i =>
      cases step_cases hstep with
      | moved _ op machine hmove hop => exact h.move hmove hop
      | frameLost _ i => exact h.lose i
  | deliverAck i =>
      cases step_cases hstep with
      | moved _ op machine hmove hop => exact h.move hmove hop
      | frameLost _ i => exact h.lose i
      | acked i payload hget =>
          have hmove : RotationMove s.machine .handleAck s.machine.handleAck.2 :=
            KeyRotationStateMachine.apply_cases rfl
          exact (h.move hmove (by simp)).loseAck i
  | loseAck i =>
      cases step_cases hstep with
      | moved _ op machine hmove hop => exact h.move hmove hop
      | frameLost _ i => exact h.lose i
      | ackLost i => exact h.loseAck i

theorem traffic_of_run {actions : List LinkAction}
    (hrun : Runs.run RotationLink.step init actions = some s) : s.Traffic :=
  Runs.invariant (P := Traffic) (fun _ _ _ h hstep => h.step hstep) traffic_init hrun

/-- **What is sent is bounded by the rotations begun.**  In every run, whatever the channel loses,
delays or reorders: the frames in the channel that carry a payload, those that the receiver has got,
and those that the sender may still send are together no more than `maxTransmissions` for each
rotation begun with the payload; and there are no more ACKs in the channel for it than frames that
the receiver has got. -/
theorem run_traffic (actions : List LinkAction) (s : RotationLink)
    (hrun : Runs.run RotationLink.step init actions = some s) (payload : KeyRotationPayload) :
    s.frames.count payload.encode + s.received.count payload + budget s.machine payload ≤
        maxTransmissions * s.begun.count payload ∧
      s.acks.count payload ≤ s.received.count payload :=
  ⟨(traffic_of_run hrun).sent payload, (traffic_of_run hrun).acks payload⟩

/-- One rotation, its frame sent twice and received twice. -/
theorem run_traffic_repeatedRotation :
    afterRepeatedRotation.received.count (samplePayload 1) ≤ maxTransmissions := by
  have h := (run_traffic repeatedRotation afterRepeatedRotation (Option.some_get _).symm
    (samplePayload 1)).1
  have hbegun : afterRepeatedRotation.begun.count (samplePayload 1) = 1 := by decide
  rw [hbegun] at h
  omega

/-! ### How a rotation goes on -/

/-- The ACK at the given place is taken for the answer to the pending rotation. -/
theorem run_deliverAck {retries : UInt8} {i : ℕ} (hstate : s.machine.state = .pending retries)
    (hget : s.acks[i]? = some payload) :
    ∃ u, Runs.run RotationLink.step s [.deliverAck i] = some u ∧ u.machine.state = .rotated := by
  refine ⟨{ s with machine := s.machine.handleAck.2, acks := s.acks.eraseIdx i },
    (Runs.run_cons_eq_some_iff _).2 ⟨_, ?_, rfl⟩, ?_⟩
  · rw [RotationLink.step, hget]
  · change s.machine.handleAck.2.state = _
    rw [KeyRotationStateMachine.handleAck, hstate]

/-- The frame at the given place is received and answered, and the ACK arrives. -/
theorem run_deliverFrame {retries : UInt8} {i : ℕ} (hstate : s.machine.state = .pending retries)
    (hget : s.frames[i]? = some payload.encode) :
    ∃ u, Runs.run RotationLink.step s [.deliverFrame i, .deliverAck s.acks.length] = some u ∧
      u.machine.state = .rotated := by
  let s' : RotationLink :=
    { s with
      frames := s.frames.eraseIdx i
      acks := s.acks ++ [payload]
      received := s.received ++ [payload] }
  have hstep : s.step (.deliverFrame i) = some s' := by
    rw [RotationLink.step, hget]
    dsimp only
    rw [KeyRotationPayload.decode_encode]
  have hack : s'.acks[s.acks.length]? = some payload := List.getElem?_concat_length
  obtain ⟨u, hu, hrotated⟩ := @run_deliverAck s' payload retries _ hstate hack
  exact ⟨u, (Runs.run_cons_eq_some_iff _).2 ⟨s', hstep, hu⟩, hrotated⟩

/-- The frame is sent again, received and answered, and the ACK arrives. -/
theorem run_timeout {retries : UInt8} (hstate : s.machine.state = .pending retries)
    (hlt : retries < maxRetries) (hpayload : s.machine.pendingPayload = some payload) :
    ∃ u, Runs.run RotationLink.step s
        [.timeout, .deliverFrame s.frames.length, .deliverAck s.acks.length] = some u ∧
      u.machine.state = .rotated := by
  let s' : RotationLink :=
    { s with
      machine := { s.machine with state := .pending (retries + 1) }
      frames := s.frames ++ [payload.encode] }
  have hstep : s.step .timeout = some s' := by
    have htimeout : s.machine.handleTimeout =
        some (.retry payload, { s.machine with state := .pending (retries + 1) }) := by
      rw [KeyRotationStateMachine.handleTimeout, hstate]
      dsimp only
      rw [if_pos hlt, hpayload]
    rw [RotationLink.step, htimeout]
  have hframe : s'.frames[s.frames.length]? = some payload.encode := List.getElem?_concat_length
  obtain ⟨u, hu, hrotated⟩ := @run_deliverFrame s' payload (retries + 1) _ rfl hframe
  exact ⟨u, (Runs.run_cons_eq_some_iff _).2 ⟨s', hstep, hu⟩, hrotated⟩

/-! ### When a rotation is lost -/

/-- No rotation is started. -/
def StartsNone (_s : RotationLink) (a : LinkAction) : Prop := ∀ payload, a ≠ .start payload

theorem guarded_startsNone {more : List LinkAction}
    (h : ∀ a ∈ more, ∀ payload, a ≠ .start payload) (s : RotationLink) :
    Runs.Guarded RotationLink.step StartsNone s more :=
  Runs.guarded_of_forall_mem (P := fun a : LinkAction => ∀ payload, a ≠ .start payload) h s

/-- Nothing is left in the channel, and nothing may be sent any more. -/
structure Spent (s : RotationLink) : Prop where
  frames : s.frames = []
  acks : s.acks = []
  pending : ∀ retries, s.machine.state = .pending retries → ¬ retries < maxRetries
  notRotated : s.machine.state ≠ .rotated

theorem Spent.move (h : s.Spent) {op : RotationOp} {machine : KeyRotationStateMachine}
    (hmove : RotationMove s.machine op machine) (hop : ∀ payload, op ≠ .startRotation payload)
    (hack : op ≠ .handleAck) : Spent { s with machine } where
  frames := h.frames
  acks := h.acks
  pending retries hstate := by
    cases hmove with
    | refused => exact h.pending retries hstate
    | started p => exact absurd rfl (hop p)
    | acked => exact absurd rfl hack
    | retried retries' p hfrom hlt => exact absurd hlt (h.pending retries' hfrom)
    | gaveUp | reset | completed => cases hstate
  notRotated := by
    cases hmove with
    | refused => exact h.notRotated
    | started p => exact absurd rfl (hop p)
    | acked => exact absurd rfl hack
    | retried | gaveUp | reset | completed => exact nofun

/-- Without a new rotation, nothing comes of it. -/
theorem Spent.step (h : s.Spent) (hstart : s.StartsNone a) (hstep : s.step a = some s') :
    s'.Spent := by
  cases step_cases hstep with
  | started payload => exact absurd rfl (hstart payload)
  | repeated machine sent hmove hsent =>
      rw [RotationLink.step] at hstep
      cases htimeout : s.machine.handleTimeout with
      | none =>
          rw [htimeout] at hstep
          cases hstep
      | some answer =>
          obtain ⟨result, machine'⟩ := answer
          have hmove' : RotationMove s.machine .handleTimeout machine' :=
            KeyRotationStateMachine.apply_cases (by
              rw [KeyRotationStateMachine.apply, htimeout]
              rfl)
          rw [htimeout] at hstep
          cases result with
          | retry sent' =>
              obtain ⟨retries, hfrom, hlt, -⟩ :=
                KeyRotationStateMachine.retried_of_handleTimeout htimeout
              exact absurd hlt (h.pending retries hfrom)
          | failed | ignored =>
              rw [← Option.some.inj hstep]
              exact h.move hmove' (by simp) (by simp)
  | moved _ op machine hmove hop hack => exact h.move hmove hop hack
  | received i bytes payload hmem => exact absurd (h.frames ▸ hmem) List.not_mem_nil
  | frameLost _ i =>
      refine ⟨?_, h.acks, h.pending, h.notRotated⟩
      change s.frames.eraseIdx i = []
      rw [h.frames]
      rfl
  | acked i payload hget =>
      rw [h.acks] at hget
      cases hget
  | ackLost i =>
      refine ⟨h.frames, ?_, h.pending, h.notRotated⟩
      change s.acks.eraseIdx i = []
      rw [h.acks]
      rfl

/-! ### Every rotation comes to an end -/

/-- The sender can be made ready for the next rotation. -/
theorem exists_idle (h : s.Traffic) :
    ∃ more u, more.length ≤ 4 ∧ Runs.run RotationLink.step s more = some u ∧
      u.machine.state = .idle := by
  cases hstate : s.machine.state with
  | idle => exact ⟨[], s, Nat.zero_le _, rfl, hstate⟩
  | rotated =>
      refine ⟨[.complete], _, by decide, rfl, ?_⟩
      change s.machine.completeRotation.2.state = _
      rw [KeyRotationStateMachine.completeRotation, hstate]
  | failed =>
      refine ⟨[.reset], _, by decide, rfl, ?_⟩
      change s.machine.manualReset.2.state = _
      rw [KeyRotationStateMachine.manualReset, hstate]
  | pending retries =>
      by_cases hlt : retries < maxRetries
      · obtain ⟨payload, hpayload⟩ := Option.isSome_iff_exists.1 (h.pending retries hstate)
        obtain ⟨u, hu, hrotated⟩ := run_timeout hstate hlt hpayload
        refine ⟨[.timeout, .deliverFrame s.frames.length, .deliverAck s.acks.length] ++
          [.complete], _, Nat.le_of_eq rfl, (Runs.run_append_eq_some_iff _).2 ⟨u, hu, rfl⟩, ?_⟩
        change u.machine.completeRotation.2.state = _
        rw [KeyRotationStateMachine.completeRotation, hrotated]
      · have htimeout : s.machine.handleTimeout =
            some (.failed, { state := .failed, pendingPayload := none }) := by
          rw [KeyRotationStateMachine.handleTimeout, hstate]
          dsimp only
          rw [if_neg hlt]
        have hstep : s.step .timeout =
            some { s with machine := { state := .failed, pendingPayload := none } } := by
          rw [RotationLink.step, htimeout]
        exact ⟨[.timeout, .reset], _, by decide,
          (Runs.run_cons_eq_some_iff _).2 ⟨_, hstep, rfl⟩, rfl⟩

/-- **Every rotation can come to an end.**  In whatever state a run has led to, no more than four
steps are needed to make the sender ready for the next rotation.  While a rotation is pending, it
can still be acknowledged exactly as long as its frame may be sent again, or there is a frame or an
ACK in the channel. -/
theorem run_settles (actions : List LinkAction) (s : RotationLink)
    (hrun : Runs.run RotationLink.step init actions = some s) :
    (∃ more u, more.length ≤ 4 ∧ Runs.run RotationLink.step s more = some u ∧
        u.machine.state = .idle) ∧
      ∀ retries, s.machine.state = .pending retries →
        ((∃ more u, Runs.Guarded RotationLink.step StartsNone s more ∧
            Runs.run RotationLink.step s more = some u ∧ u.machine.state = .rotated) ↔
          retries < maxRetries ∨ s.frames ≠ [] ∨ s.acks ≠ []) := by
  have htraffic := traffic_of_run hrun
  have hgenuine : s.Genuine :=
    Runs.invariant (P := Genuine) (fun _ _ _ h hstep => h.step hstep) genuine_init hrun
  refine ⟨exists_idle htraffic, fun retries hstate => ⟨?_, ?_⟩⟩
  · rintro ⟨more, u, hnone, hu, hrotated⟩
    by_contra hover
    rw [not_or, not_or, not_not, not_not] at hover
    obtain ⟨hlast, hframes, hacks⟩ := hover
    have hspent : s.Spent :=
      { frames := hframes
        acks := hacks
        pending := fun r hr => by
          cases hstate.symm.trans hr
          exact hlast
        notRotated := by
          rw [hstate]
          exact nofun }
    exact (Runs.invariant_of_guarded (P := Spent) (fun _ _ _ h hstart hstep => h.step hstart hstep)
      hspent hnone hu).notRotated hrotated
  · rintro (hlt | hframes | hacks)
    · obtain ⟨payload, hpayload⟩ := Option.isSome_iff_exists.1 (htraffic.pending retries hstate)
      obtain ⟨u, hu, hrotated⟩ := run_timeout hstate hlt hpayload
      exact ⟨_, u, guarded_startsNone (by simp) s, hu, hrotated⟩
    · obtain ⟨bytes, hbytes⟩ := List.exists_mem_of_ne_nil _ hframes
      obtain ⟨payload, -, rfl⟩ := hgenuine.frames bytes hbytes
      obtain ⟨i, hi⟩ := List.mem_iff_getElem?.1 hbytes
      obtain ⟨u, hu, hrotated⟩ := run_deliverFrame hstate hi
      exact ⟨_, u, guarded_startsNone (by simp) s, hu, hrotated⟩
    · obtain ⟨payload, hpayload⟩ := List.exists_mem_of_ne_nil _ hacks
      obtain ⟨i, hi⟩ := List.mem_iff_getElem?.1 hpayload
      obtain ⟨u, hu, hrotated⟩ := run_deliverAck hstate hi
      exact ⟨_, u, guarded_startsNone (by simp) s, hu, hrotated⟩

/-- A rotation has been begun, and its frame has been lost. -/
def afterLostFrame : RotationLink :=
  (Runs.run RotationLink.step init [.start (samplePayload 1), .loseFrame 0]).get (by decide)

/-- It can still be acknowledged. -/
theorem run_settles_afterLostFrame :
    ∃ more u, Runs.Guarded RotationLink.step StartsNone afterLostFrame more ∧
      Runs.run RotationLink.step afterLostFrame more = some u ∧ u.machine.state = .rotated :=
  ((run_settles [.start (samplePayload 1), .loseFrame 0] afterLostFrame
    (Option.some_get _).symm).2 0 (by decide)).2 (Or.inl (by decide))

end RotationLink

end Bind19
