/-
# The loop over the descriptors

What every step of the daemon's loop keeps, whatever the kernel answers, as
long as a descriptor that is accepted is new (`Sound`): no descriptor above
the maximum is in use, and a descriptor that is not listened to is an empty
slot with no pid, unless its client has just gone and the loop has yet to come
to it (`Wired`).

Key definitions: `Sound`, `Wired`, `Turned`.
Key theorems: `handle_turned`, `wired_start`.
-/
import Retif.Daemon

namespace Retif

/-- A descriptor the kernel gives out is not in use. -/
def Sound (data : Daemon) (t : Tick) : Prop := data.cursor = none → Fresh t.round data.chann.sock

instance (round : Round) (us : Usocket) : Decidable (Fresh round us) := by
  unfold Fresh; infer_instance

instance (data : Daemon) (t : Tick) : Decidable (Sound data t) := by
  unfold Sound; infer_instance

/-- The round accepts a connection on `d`. -/
def Accepts (round : Round) (us : Usocket) (d : ℕ) : Prop :=
  readable round us us.socket ∧ round.accepted = some d

instance (round : Round) (us : Usocket) (d : ℕ) : Decidable (Accepts round us d) := by
  unfold Accepts; infer_instance

/-- The slots and the descriptors in use agree. -/
structure Wired (data : Daemon) : Prop where
  highest : data.chann.sock.socket ≤ data.chann.sock.connSetMax
  ranged : ∀ d, data.chann.sock.connSet d → d ≤ data.chann.sock.connSetMax
  used : ∀ d, (data.chann.client d).state ≠ .empty → d ≤ data.chann.sock.connSetMax ∧ d ≠ data.chann.sock.socket
  closed : ∀ d, d ≠ data.chann.sock.socket → data.chann.sock.connSet d = false →
    (data.chann.client d).state = .empty ∨
      ((data.chann.client d).state = .disconnected ∧ ∃ i, data.cursor = some i ∧ i ≤ d)
  vacant : ∀ d, d ≠ data.chann.sock.socket → data.chann.sock.connSet d = false →
    (data.chann.client d).state = .empty → (data.chann.client d).pid = 0

namespace Wired

variable {data : Daemon}

theorem maxfd_eq (hW : Wired data) : usocketGetMaxfd data.chann.sock = data.chann.sock.connSetMax := by
  have := hW.highest
  unfold usocketGetMaxfd
  split <;> omega

/-- Between two polls, a descriptor that is not listened to is an empty slot. -/
theorem empty (hW : Wired data) (hc : data.cursor = none) {d : ℕ} (hd : d ≠ data.chann.sock.socket)
    (hs : data.chann.sock.connSet d = false) : (data.chann.client d).state = .empty := by
  rcases hW.closed d hd hs with h | ⟨-, i, hi, -⟩
  · exact h
  · rw [hc] at hi
    cases hi

end Wired

/-! ### A turn of the loop -/

/-- The loop took its turn with descriptor `i`: the other descriptors are as they were. -/
structure Turned (c : Carrier) (i : ℕ) (c' : Carrier) : Prop where
  socket : c'.sock.socket = c.sock.socket
  highest : c'.sock.connSetMax = c.sock.connSetMax
  lastReq : c'.lastReq = c.lastReq
  others : ∀ d, d ≠ i → c'.client d = c.client d ∧ c'.lastN d = c.lastN d ∧ c'.sock.connSet d = c.sock.connSet d

theorem Turned.refl (c : Carrier) (i : ℕ) : Turned c i c := ⟨rfl, rfl, rfl, fun _ _ => ⟨rfl, rfl, rfl⟩⟩

section Handle

variable {data data' : Daemon} {i : ℕ} {sent : ℤ} {out : Out} {rep : Reply}

/-- Processing a request changes at most the pid of the client. -/
theorem process_carrier (h : rtfDaemonProcessReq data i = .ok (rep, data')) :
    data'.cursor = data.cursor ∧ (data'.chann = data.chann ∨ ∃ pid, data'.chann = rtfCarrierSetPid data.chann i pid) := by
  rcases process_ok h with ⟨-, rfl⟩ | ⟨-, -, rfl⟩ | ⟨o, r, s, -, -, rfl⟩
  · exact ⟨rfl, .inr ⟨_, rfl⟩⟩
  · exact ⟨rfl, .inl rfl⟩
  · exact ⟨rfl, .inl rfl⟩

theorem settled_turned (c : Carrier) (i : ℕ) (sent : ℤ) : Turned c i (settled c i sent) ∧
    (settled c i sent).sock = c.sock ∧ (settled c i sent).lastN i = 0 ∧
    (settled c i sent).client i = { c.client i with state := if sent ≤ 0 then .error else (c.client i).state } := by
  unfold settled
  split
  · refine ⟨⟨rfl, rfl, rfl, ?_⟩, rfl, ?_, ?_⟩
    · intro d hd
      simp [rtfCarrierSetState, rtfCarrierReqClear, hd]
    · simp [rtfCarrierSetState, rtfCarrierReqClear]
    · simp [rtfCarrierSetState, rtfCarrierReqClear]
  · refine ⟨⟨rfl, rfl, rfl, ?_⟩, rfl, ?_, rfl⟩
    · intro d hd
      simp [rtfCarrierReqClear, hd]
    · simp [rtfCarrierReqClear]

/-- **A turn of the loop**, as the carrier sees it. -/
theorem handle_turned (h : rtfDaemonHandleReq data i sent = .ok (out, data')) :
    Turned data.chann i data'.chann ∧ data'.cursor = data.cursor ∧
      ((Failed data i ∧ out = .cleaned i ∧ (data'.chann.client i).state = .empty ∧ (data'.chann.client i).pid = 0 ∧
          data'.chann.sock.connSet i = false) ∨
        ((data.chann.client i).state = .connected ∧ 0 < data.chann.lastN i ∧
          (∃ rep, out = .handled i (data.chann.lastReq i) rep) ∧ data'.chann.lastN i = 0 ∧
          data'.chann.sock = data.chann.sock ∧
          ((data'.chann.client i).state = .connected ∨ (data'.chann.client i).state = .error)) ∨
        (¬ Failed data i ∧ rtfDaemonCheckForUpdate data i = false ∧ out = .idle ∧ data' = data)) := by
  rcases handle_ok h with ⟨hf, rfl, hclean⟩ | ⟨hf, hu, rep, after, hp, rfl, rfl⟩ | ⟨hf, hu, rfl, rfl⟩
  · obtain ⟨s, -, rfl⟩ := cleanUp_ok hclean
    refine ⟨⟨rfl, rfl, rfl, ?_⟩, rfl, .inl ⟨hf, rfl, ?_, ?_, ?_⟩⟩
    · intro d hd
      simp [rtfCarrierClose, rtfCarrierSetPid, rtfCarrierSetState, usocketRemoveConnection, hd]
    · simp [rtfCarrierClose, rtfCarrierSetPid, rtfCarrierSetState]
    · simp [rtfCarrierClose, rtfCarrierSetPid]
    · simp [rtfCarrierClose, rtfCarrierSetPid, usocketRemoveConnection]
  · obtain ⟨hcur, hch⟩ := process_carrier hp
    obtain ⟨⟨h1, h2, h3, h4⟩, hsock, hn, hcl⟩ := settled_turned after.chann i sent
    have hu' := Bool.and_eq_true_iff.mp hu
    have hst : (data.chann.client i).state = .connected := of_decide_eq_true hu'.1
    have hpos : 0 < data.chann.lastN i := of_decide_eq_true hu'.2
    have hafter : Turned data.chann i after.chann ∧ after.chann.sock = data.chann.sock ∧
        (after.chann.client i).state = .connected := by
      rcases hch with he | ⟨pid, he⟩
      · rw [he]
        exact ⟨Turned.refl _ _, rfl, hst⟩
      · rw [he]
        refine ⟨⟨rfl, rfl, rfl, ?_⟩, rfl, ?_⟩
        · intro d hd
          simp [rtfCarrierSetPid, hd]
        · simpa [rtfCarrierSetPid] using hst
    obtain ⟨⟨a1, a2, a3, a4⟩, asock, ast⟩ := hafter
    refine ⟨⟨h1.trans a1, h2.trans a2, h3.trans a3, ?_⟩, hcur,
      .inr (.inl ⟨hst, hpos, ⟨rep, rfl⟩, hn, hsock.trans asock, ?_⟩)⟩
    · intro d hd
      obtain ⟨b1, b2, b3⟩ := h4 d hd
      obtain ⟨c1, c2, c3⟩ := a4 d hd
      exact ⟨b1.trans c1, b2.trans c2, b3.trans c3⟩
    · rw [hcl, ast]
      dsimp only
      split
      · exact .inr rfl
      · exact .inl rfl
  · exact ⟨Turned.refl _ _, rfl, .inr (.inr ⟨hf, hu, rfl, rfl⟩)⟩

end Handle

/-! ### The invariant -/

theorem nextState_neg (st : ClientState) : nextState st (-1) = .disconnected := by
  cases st <;> rfl

theorem nextState_zero_empty : nextState .empty 0 = .empty := rfl

section Steps

variable {data data' : Daemon} {t : Tick} {out : Out}

theorem readable_connSet {round : Round} {us : Usocket} {d : ℕ} (h : readable round us d = true) :
    us.connSet d = true ∧ round.ready.isSome := by
  unfold readable at h
  split at h
  · cases h
  · rename_i ready hr
    exact ⟨(Bool.and_eq_true_iff.mp h).1, by rw [hr]; rfl⟩

theorem wired_polled (hW : Wired data) (hc : data.cursor = none) (hs : Fresh t.round data.chann.sock) :
    Wired { data with chann := rtfCarrierUpdate data.chann t.round, cursor := some 0 } := by
  have U := update_fields hW.ranged hs
  have hmax := hW.maxfd_eq
  -- a descriptor that is not listened to afterwards was closed just now, or was not in use before
  have hwas : ∀ d, d ≠ data.chann.sock.socket →
      (rtfCarrierUpdate data.chann t.round).sock.connSet d = false →
        ((rtfCarrierUpdate data.chann t.round).client d).state = .disconnected ∨
          (data.chann.sock.connSet d = false ∧
            ((rtfCarrierUpdate data.chann t.round).client d).state = .empty) := by
    intro d hd hset
    rw [U.connSet d hd] at hset
    split at hset
    · rename_i hcl
      left
      obtain ⟨hin, hsome⟩ := readable_connSet hcl.1
      have hle := hW.ranged d hin
      have hn : (rtfCarrierUpdate data.chann t.round).lastN d = -1 := by
        rw [U.lastN d hd, if_pos hcl.1]
        obtain ⟨bs, hbs, h0⟩ := hcl.2
        simp [hbs, Recv.count, h0]
      rw [U.state d hd, if_pos ⟨hsome, by omega⟩, hn, nextState_neg]
    · split at hset
      · cases hset
      · right
        refine ⟨hset, ?_⟩
        have hempty := hW.empty hc hd hset
        have hnr : readable t.round data.chann.sock d = false := by
          by_contra hr
          have := (readable_connSet (Bool.eq_true_of_not_eq_false hr)).1
          rw [hset] at this
          cases this
        rw [U.state d hd, hempty]
        split
        · rename_i hle
          rw [U.lastN d hd, hnr, if_neg (by simp), if_pos hle.2, nextState_zero_empty]
        · rfl
  refine ⟨?_, ?_, ?_, ?_, ?_⟩
  · show (rtfCarrierUpdate data.chann t.round).sock.socket ≤ _
    rw [U.socket]
    exact hW.highest.trans U.highest
  · intro d hd
    by_cases hds : d = data.chann.sock.socket
    · rw [hds]
      exact hW.highest.trans U.highest
    · exact U.ranged d hds hd
  · intro d hd
    change ((rtfCarrierUpdate data.chann t.round).client d).state ≠ .empty at hd
    show d ≤ (rtfCarrierUpdate data.chann t.round).sock.connSetMax ∧
      d ≠ (rtfCarrierUpdate data.chann t.round).sock.socket
    rw [U.socket]
    by_cases hds : d = data.chann.sock.socket
    · rw [hds, U.main] at hd
      exact absurd rfl (hW.used _ hd).2
    · refine ⟨?_, hds⟩
      rw [U.state d hds] at hd
      split at hd
      · rename_i hle
        have := U.highest
        omega
      · exact (hW.used d hd).1.trans U.highest
  · intro d hd hset
    change d ≠ (rtfCarrierUpdate data.chann t.round).sock.socket at hd
    rw [U.socket] at hd
    rcases hwas d hd hset with h | ⟨-, h⟩
    · exact .inr ⟨h, 0, rfl, Nat.zero_le d⟩
    · exact .inl h
  · intro d hd hset hst
    change d ≠ (rtfCarrierUpdate data.chann t.round).sock.socket at hd
    change ((rtfCarrierUpdate data.chann t.round).client d).state = .empty at hst
    show ((rtfCarrierUpdate data.chann t.round).client d).pid = 0
    rw [U.socket] at hd
    rcases hwas d hd hset with h | ⟨hset, -⟩
    · rw [h] at hst
      cases hst
    · rw [U.pid]
      exact hW.vacant d hd hset (hW.empty hc hd hset)

/-- Where the loop goes on after its turn with `i`. -/
theorem cursor_next {c : Carrier} {i j : ℕ} (h : (if i < rtfCarrierGetConn c then some (i + 1) else none) = some j) :
    j = i + 1 := by
  split at h
  · cases h
    rfl
  · cases h

theorem wired_turn {i : ℕ} {d : Daemon} (hW : Wired data) (hc : data.cursor = some i)
    (h : rtfDaemonHandleReq data i t.sent = .ok (out, d)) :
    Wired { d with cursor := if i < rtfCarrierGetConn d.chann then some (i + 1) else none } := by
  obtain ⟨⟨hsock, hmax, -, hothers⟩, -, hcase⟩ := handle_turned h
  have hconn : rtfCarrierGetConn d.chann = data.chann.sock.connSetMax := by
    unfold rtfCarrierGetConn usocketGetMaxfd
    rw [hsock, hmax]
    exact hW.maxfd_eq
  -- the slot the turn was for
  have hself : ((d.chann.client i).state ≠ .empty → (data.chann.client i).state ≠ .empty) ∧
      (d.chann.sock.connSet i → data.chann.sock.connSet i) ∧
      (i ≠ data.chann.sock.socket → d.chann.sock.connSet i = false →
        (d.chann.client i).state = .empty ∧ (d.chann.client i).pid = 0) := by
    rcases hcase with ⟨-, -, hst, hpid, hset⟩ | ⟨hst, -, -, -, hso, -⟩ | ⟨hnf, -, -, rfl⟩
    · refine ⟨fun hne => absurd hst hne, ?_, fun _ _ => ⟨hst, hpid⟩⟩
      rw [hset]
      intro hf
      cases hf
    · rw [hso]
      refine ⟨fun _ => by rw [hst]; decide, id, ?_⟩
      intro hi hset
      rcases hW.closed i hi hset with he | ⟨he, -⟩
      · rw [hst] at he
        cases he
      · rw [hst] at he
        cases he
    · refine ⟨id, id, ?_⟩
      intro hi hset
      rcases hW.closed i hi hset with he | ⟨he, -⟩
      · exact ⟨he, hW.vacant i hi hset he⟩
      · exact absurd (Or.inr he) hnf
  refine ⟨?_, ?_, ?_, ?_, ?_⟩
  · show d.chann.sock.socket ≤ d.chann.sock.connSetMax
    rw [hsock, hmax]
    exact hW.highest
  · intro e he
    show e ≤ d.chann.sock.connSetMax
    rw [hmax]
    by_cases hei : e = i
    · subst hei
      exact hW.ranged e (hself.2.1 he)
    · change d.chann.sock.connSet e = true at he
      rw [(hothers e hei).2.2] at he
      exact hW.ranged e he
  · intro e he
    show e ≤ d.chann.sock.connSetMax ∧ e ≠ d.chann.sock.socket
    rw [hmax, hsock]
    by_cases hei : e = i
    · subst hei
      exact hW.used e (hself.1 he)
    · change (d.chann.client e).state ≠ .empty at he
      rw [(hothers e hei).1] at he
      exact hW.used e he
  · intro e he hset
    change e ≠ d.chann.sock.socket at he
    change d.chann.sock.connSet e = false at hset
    rw [hsock] at he
    by_cases hei : e = i
    · subst hei
      exact .inl (hself.2.2 he hset).1
    · rw [(hothers e hei).2.2] at hset
      show (d.chann.client e).state = .empty ∨ ((d.chann.client e).state = .disconnected ∧ _)
      rw [(hothers e hei).1]
      rcases hW.closed e he hset with hst | ⟨hst, j, hj, hle⟩
      · exact .inl hst
      · rw [hc] at hj
        cases hj
        -- the loop has not come to it yet, and it will
        have hused := (hW.used e (by rw [hst]; decide)).1
        have hlt : i < rtfCarrierGetConn d.chann := by omega
        exact .inr ⟨hst, i + 1, if_pos hlt, by omega⟩
  · intro e he hset hst
    change e ≠ d.chann.sock.socket at he
    change d.chann.sock.connSet e = false at hset
    change (d.chann.client e).state = .empty at hst
    show (d.chann.client e).pid = 0
    rw [hsock] at he
    by_cases hei : e = i
    · subst hei
      exact (hself.2.2 he hset).2
    · rw [(hothers e hei).2.2] at hset
      rw [(hothers e hei).1] at hst ⊢
      exact hW.vacant e he hset hst

theorem wired_start (socket : ℕ) (s : Sched) : Wired (Daemon.start socket s) := by
  refine ⟨le_rfl, ?_, ?_, ?_, ?_⟩
  · intro d hd
    exact (of_decide_eq_true hd).le
  · intro d hd
    exact absurd rfl hd
  · intro d _ _
    exact .inl rfl
  · intro d _ _ _
    rfl

end Steps

end Retif
