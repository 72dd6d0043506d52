/-
# Exactly one dispatch for a message

A `recv` that gives bytes is a message. Where the slot of its descriptor is
`CONNECTED` after the poll, the loop hands it to `rtf_daemon_process_req` once,
in the same iteration and to the client it came from; any other message, and
the main socket, it does not dispatch. A slot whose client is gone stays empty
until a message of the next client arrives.

Which messages were received and which dispatched, in which iteration and for
which client of the descriptor, is proof-only state.

Key definitions: `Traced`, `tracedStep`, `ExactlyOnce`, `Dispatching`.
Key theorems: `dispatching_step`, `dispatch_run`.
-/
import Retif.Framing

namespace Retif

open Memory

/-- A message: when it came, from which client of its descriptor, and the slot
after the poll that received it. -/
structure Message where
  iteration : ℕ
  client : ℕ
  state : ClientState
  bytes : List UInt8

/-- A call of `rtf_daemon_process_req`. -/
structure Dispatch where
  iteration : ℕ
  client : ℕ
  request : Request

/-- The daemon, with the number of polls, the clients that are gone and the
messages and dispatches of each descriptor. -/
structure Traced extends Daemon where
  iteration : ℕ
  gone : ℕ → ℕ
  messages : ℕ → List Message
  dispatches : ℕ → List Dispatch

def Traced.start (data : Daemon) : Traced :=
  { data with iteration := 0, gone := fun _ => 0, messages := fun _ => [], dispatches := fun _ => [] }

/-- The message a poll takes from descriptor `d`, if it takes one. -/
def Traced.arrival (w : Traced) (round : Round) (d : ℕ) : List Message :=
  if d ≠ w.chann.sock.socket ∧ readable round w.chann.sock d then
    (round.recv d).chunk.map fun bs =>
      ⟨w.iteration + 1, w.gone d, ((rtfCarrierUpdate w.chann round).client d).state, bs⟩
  else []

/-- The state after a step that did `out`. -/
def Traced.after (w : Traced) (t : Tick) (out : Out) (data : Daemon) : Traced :=
  match out with
  | .polled =>
    { w with
      toDaemon := data
      iteration := w.iteration + 1
      messages := fun d => w.messages d ++ w.arrival t.round d }
  | .idle => { w with toDaemon := data }
  | .cleaned i => { w with toDaemon := data, gone := Function.update w.gone i (w.gone i + 1) }
  | .handled i req _ =>
    { w with
      toDaemon := data
      dispatches := Function.update w.dispatches i (w.dispatches i ++ [⟨w.iteration, w.gone i, req⟩]) }

def tracedStep (w : Traced) (t : Tick) : Except Fault (Out × Traced) := do
  let (out, data) ← daemonStep w.toDaemon t
  .ok (out, w.after t out data)

/-- The loop is through with descriptor `d` in this iteration. -/
def Passed (data : Daemon) (d : ℕ) : Prop := ∀ i ∈ data.cursor, d < i

instance (data : Daemon) (d : ℕ) : Decidable (Passed data d) := by
  unfold Passed; infer_instance

/-- **Exactly once, and clean slots.** -/
structure ExactlyOnce (w : Traced) : Prop where
  numbered : ∀ d, (w.messages d).Pairwise fun m m' => m.iteration < m'.iteration
  once : ∀ d, ∀ m ∈ w.messages d, (w.dispatches d).countP (·.iteration = m.iteration) =
    if m.state = .connected ∧ (m.iteration < w.iteration ∨ Passed w.toDaemon d) then 1 else 0
  only : ∀ d, ∀ e ∈ w.dispatches d, ∃ m ∈ w.messages d,
    m.iteration = e.iteration ∧ m.client = e.client ∧ m.state = .connected ∧ m.bytes <+: e.request.1
  listening : w.dispatches w.chann.sock.socket = []
  clean : ∀ d, d ≠ w.chann.sock.socket → (∀ m ∈ w.messages d, m.client < w.gone d) → Passed w.toDaemon d →
    w.chann.client d = ⟨.empty, 0⟩

/-! ### The invariant -/

/-- The message of this iteration that waits on `d`, and what is known of the
messages and dispatches of `d`. -/
structure Dispatching (w : Traced) : Prop where
  wired : Wired w.toDaemon
  numbered : ∀ d, (w.messages d).Pairwise fun m m' => m.iteration < m'.iteration
  past : ∀ d, ∀ m ∈ w.messages d, m.iteration ≤ w.iteration ∧ m.client ≤ w.gone d ∧
    d ≠ w.chann.sock.socket ∧ d ≤ w.chann.sock.connSetMax
  waits : ∀ d, d ≠ w.chann.sock.socket → ¬ Passed w.toDaemon d → ∀ m ∈ w.messages d, m.iteration = w.iteration →
    m.state = (w.chann.client d).state ∧ m.client = w.gone d ∧ m.bytes <+: (w.chann.lastReq d).1 ∧ 0 < w.chann.lastN d
  arrived : ∀ d, d ≠ w.chann.sock.socket → ¬ Passed w.toDaemon d → (w.chann.client d).state = .connected →
    0 < w.chann.lastN d → ∃ m ∈ w.messages d, m.iteration = w.iteration
  done : ∀ d, ∀ e ∈ w.dispatches d, e.iteration ≤ w.iteration ∧ (¬ Passed w.toDaemon d → e.iteration < w.iteration)
  once : ∀ d, ∀ m ∈ w.messages d, (w.dispatches d).countP (·.iteration = m.iteration) =
    if m.state = .connected ∧ (m.iteration < w.iteration ∨ Passed w.toDaemon d) then 1 else 0
  only : ∀ d, ∀ e ∈ w.dispatches d, ∃ m ∈ w.messages d,
    m.iteration = e.iteration ∧ m.client = e.client ∧ m.state = .connected ∧ m.bytes <+: e.request.1
  vacant : ∀ d, d ≠ w.chann.sock.socket → (∀ m ∈ w.messages d, m.client < w.gone d) →
    (w.chann.client d).pid = 0 ∧ ((w.chann.client d).state = .empty ∨
      (w.chann.client d).state = .disconnected ∧ ¬ Passed w.toDaemon d)

theorem Dispatching.exactlyOnce {w : Traced} (hD : Dispatching w) : ExactlyOnce w := by
  refine ⟨hD.numbered, hD.once, hD.only, ?_, ?_⟩
  · by_contra hne
    obtain ⟨e, he⟩ := List.exists_mem_of_ne_nil _ hne
    obtain ⟨m, hm, -⟩ := hD.only _ e he
    exact (hD.past _ m hm).2.2.1 rfl
  · intro d hd hold hpassed
    obtain ⟨hpid, hst⟩ := hD.vacant d hd hold
    rcases hst with hst | ⟨-, hnot⟩
    · calc w.chann.client d = ⟨(w.chann.client d).state, (w.chann.client d).pid⟩ := rfl
        _ = ⟨.empty, 0⟩ := by rw [hst, hpid]
    · exact absurd hpassed hnot

section Steps

variable {w : Traced} {t : Tick}

/-- The bytes received are the beginning of the request. -/
theorem received_prefix {b : Request} (bs : {bs : List UInt8 // bs.length ≤ REQUEST_SIZE}) :
    bs.1 <+: (received b bs).1 := by
  show bs.1 <+: store b.1 0 bs.1
  rw [store, List.take_zero, List.nil_append]
  exact List.prefix_append _ _

/-- A poll takes no message from a descriptor, or one. -/
theorem arrival_cases (w : Traced) (round : Round) (d : ℕ) :
    (w.arrival round d = [] ∧
      (d = w.chann.sock.socket ∨ readable round w.chann.sock d = false ∨ (round.recv d).count ≤ 0)) ∨
    ∃ bs, w.arrival round d =
        [⟨w.iteration + 1, w.gone d, ((rtfCarrierUpdate w.chann round).client d).state, bs.1⟩] ∧
      d ≠ w.chann.sock.socket ∧ readable round w.chann.sock d ∧ round.recv d = some bs ∧ bs.1.length ≠ 0 := by
  unfold Traced.arrival
  by_cases hr : d ≠ w.chann.sock.socket ∧ readable round w.chann.sock d
  · rw [if_pos hr]
    rcases hrec : round.recv d with _ | bs
    · exact .inl ⟨rfl, .inr (.inr (by decide))⟩
    · by_cases h0 : bs.1.length = 0
      · left
        simp [Recv.chunk, Recv.count, h0]
      · right
        refine ⟨bs, ?_, hr.1, hr.2, rfl, h0⟩
        simp [Recv.chunk, h0]
  · rw [if_neg hr]
    left
    refine ⟨rfl, ?_⟩
    by_cases hd : d = w.chann.sock.socket
    · exact .inl hd
    · exact .inr (.inl (Bool.eq_false_iff.mpr fun h => hr ⟨hd, h⟩))

/-- What a message finds. -/
theorem arrival_mem (hW : Wired w.toDaemon) (hs : Fresh t.round w.chann.sock) {d : ℕ} {m : Message}
    (hm : m ∈ w.arrival t.round d) : d ≠ w.chann.sock.socket ∧ d ≤ w.chann.sock.connSetMax ∧
      m.iteration = w.iteration + 1 ∧ m.client = w.gone d ∧
        m.state = ((rtfCarrierUpdate w.chann t.round).client d).state ∧
          m.bytes <+: ((rtfCarrierUpdate w.chann t.round).lastReq d).1 ∧
            0 < (rtfCarrierUpdate w.chann t.round).lastN d := by
  have U := update_fields hW.ranged hs
  rcases arrival_cases w t.round d with ⟨hnone, -⟩ | ⟨bs, hone, hd, hr, hrec, h0⟩
  · rw [hnone] at hm
    exact absurd hm List.not_mem_nil
  · rw [hone] at hm
    obtain rfl := List.mem_singleton.mp hm
    refine ⟨hd, hW.ranged d (readable_connSet hr).1, rfl, rfl, rfl, ?_, ?_⟩
    · rw [U.lastReq d hd, if_pos hr, hrec]
      exact received_prefix bs
    · rw [U.lastN d hd, if_pos hr, hrec]
      simp only [Recv.count, if_neg h0]
      exact_mod_cast Nat.pos_of_ne_zero h0

/-- Without a message there is nothing to dispatch, and an empty slot stays
empty or its client is gone. -/
theorem arrival_none (hW : Wired w.toDaemon) (hs : Fresh t.round w.chann.sock) {d : ℕ}
    (hd : d ≠ w.chann.sock.socket) (hnone : w.arrival t.round d = []) :
    (((rtfCarrierUpdate w.chann t.round).client d).state = .connected →
      ¬ 0 < (rtfCarrierUpdate w.chann t.round).lastN d) ∧
    ((w.chann.client d).state = .empty → ((rtfCarrierUpdate w.chann t.round).client d).state = .empty ∨
      ((rtfCarrierUpdate w.chann t.round).client d).state = .disconnected) := by
  have U := update_fields hW.ranged hs
  have hmax := hW.maxfd_eq
  have hcount : readable t.round w.chann.sock d = true → (t.round.recv d).count = -1 := by
    intro hr
    rcases arrival_cases w t.round d with ⟨-, hd' | hr' | hle⟩ | ⟨bs, hone, -⟩
    · exact absurd hd' hd
    · rw [hr] at hr'
      cases hr'
    · rcases hrec : t.round.recv d with _ | bs
      · rfl
      · rw [hrec] at hle
        unfold Recv.count at hle ⊢
        dsimp only at hle ⊢
        split
        · rfl
        · rename_i h0
          rw [if_neg h0] at hle
          omega
    · rw [hone] at hnone
      cases hnone
  by_cases hr : readable t.round w.chann.sock d = true
  · have hn : (rtfCarrierUpdate w.chann t.round).lastN d = -1 := by
      rw [U.lastN d hd, if_pos hr, hcount hr]
    have hle := hW.ranged d (readable_connSet hr).1
    rw [U.state d hd, if_pos ⟨(readable_connSet hr).2, by omega⟩, hn, nextState_neg]
    refine ⟨?_, fun _ => .inr rfl⟩
    intro h
    cases h
  · by_cases hle : d ≤ usocketGetMaxfd w.chann.sock
    · have hn : (rtfCarrierUpdate w.chann t.round).lastN d = 0 := by
        rw [U.lastN d hd, if_neg hr, if_pos hle]
      rw [hn]
      refine ⟨fun _ => lt_irrefl 0, ?_⟩
      intro hemp
      rw [U.state d hd, hn, hemp]
      left
      split <;> rfl
    · rw [U.state d hd, if_neg fun h => hle h.2]
      refine ⟨?_, .inl⟩
      intro hcon
      have := (hW.used d (by rw [hcon]; decide)).1
      omega

theorem dispatching_polled (hD : Dispatching w) (hc : w.cursor = none) (hs : Sound w.toDaemon t) :
    Dispatching (w.after t .polled { w.toDaemon with chann := rtfCarrierUpdate w.chann t.round, cursor := some 0 }) := by
  have hW := hD.wired
  have hfresh := hs hc
  have U := update_fields hW.ranged hfresh
  have hpassed : ∀ d, Passed w.toDaemon d := by
    intro d i hi
    rw [hc] at hi
    cases hi
  have hnot : ∀ d, ¬ Passed
      (w.after t .polled
        { w.toDaemon with chann := rtfCarrierUpdate w.chann t.round, cursor := some 0 }).toDaemon d :=
    fun d h => absurd (h 0 rfl) (Nat.not_lt_zero d)
  -- the messages of before are of earlier iterations
  have hold : ∀ d, ∀ m ∈ w.messages d, m.iteration < w.iteration + 1 := by
    intro d m hm
    have := (hD.past d m hm).1
    omega
  have hnew : ∀ d, ∀ m ∈ w.messages d ++ w.arrival t.round d, m.iteration = w.iteration + 1 →
      m ∈ w.arrival t.round d := by
    intro d m hm hit
    rcases List.mem_append.mp hm with hm | hm
    · have := hold d m hm
      omega
    · exact hm
  refine ⟨wired_polled hW hc hfresh, ?_, ?_, ?_, ?_, ?_, ?_, ?_, ?_⟩
  · intro d
    refine List.pairwise_append.mpr ⟨hD.numbered d, ?_, ?_⟩
    · rcases arrival_cases w t.round d with ⟨h, -⟩ | ⟨bs, h, -⟩ <;> rw [h] <;> simp
    · intro m hm m' hm'
      rw [(arrival_mem hW hfresh hm').2.2.1]
      exact hold d m hm
  · intro d m hm
    show m.iteration ≤ w.iteration + 1 ∧ m.client ≤ w.gone d ∧
      d ≠ (rtfCarrierUpdate w.chann t.round).sock.socket ∧ d ≤ (rtfCarrierUpdate w.chann t.round).sock.connSetMax
    have hhigh := U.highest
    rw [U.socket]
    rcases List.mem_append.mp hm with hm | hm
    · obtain ⟨h1, h2, h3, h4⟩ := hD.past d m hm
      exact ⟨by omega, h2, h3, by omega⟩
    · obtain ⟨h1, h2, h3, h4, -⟩ := arrival_mem hW hfresh hm
      exact ⟨by omega, h4.le, h1, by omega⟩
  · intro d _ _ m hm hit
    obtain ⟨-, -, -, h1, h2, h3, h4⟩ := arrival_mem hW hfresh (hnew d m hm hit)
    exact ⟨h2, h1, h3, h4⟩
  · intro d hd _ hcon hpos
    change d ≠ (rtfCarrierUpdate w.chann t.round).sock.socket at hd
    rw [U.socket] at hd
    rcases arrival_cases w t.round d with ⟨hnone, -⟩ | ⟨bs, hone, -⟩
    · exact absurd hpos ((arrival_none hW hfresh hd hnone).1 hcon)
    · refine ⟨⟨w.iteration + 1, w.gone d, ((rtfCarrierUpdate w.chann t.round).client d).state, bs.1⟩, ?_, rfl⟩
      show _ ∈ w.messages d ++ w.arrival t.round d
      rw [hone]
      exact List.mem_append_right _ (List.mem_singleton_self _)
  · intro d e he
    have := (hD.done d e he).1
    exact ⟨by show e.iteration ≤ w.iteration + 1; omega, fun _ => by show e.iteration < w.iteration + 1; omega⟩
  · intro d m hm
    rcases List.mem_append.mp hm with hm | hm
    · refine (hD.once d m hm).trans (if_congr (and_congr_right fun _ => ?_) rfl rfl)
      exact ⟨fun _ => .inl (hold d m hm), fun _ => .inr (hpassed d)⟩
    · -- nothing was dispatched in this iteration yet
      have hit := (arrival_mem hW hfresh hm).2.2.1
      have hno : ¬ (m.state = .connected ∧ (m.iteration < w.iteration + 1 ∨ Passed
          (w.after t .polled
            { w.toDaemon with chann := rtfCarrierUpdate w.chann t.round, cursor := some 0 }).toDaemon d)) := by
        rintro ⟨-, h | h⟩
        · omega
        · exact hnot d h
      refine Eq.trans ?_ (if_neg hno).symm
      apply List.countP_eq_zero.mpr
      intro e he
      have := (hD.done d e he).1
      simp only [decide_eq_true_eq]
      omega
  · intro d e he
    obtain ⟨m, hm, h⟩ := hD.only d e he
    exact ⟨m, List.mem_append_left _ hm, h⟩
  · intro d hd hgone
    change d ≠ (rtfCarrierUpdate w.chann t.round).sock.socket at hd
    rw [U.socket] at hd
    have hbefore : ∀ m ∈ w.messages d, m.client < w.gone d := fun m hm => hgone m (List.mem_append_left _ hm)
    have hnone : w.arrival t.round d = [] := by
      rcases arrival_cases w t.round d with ⟨h, -⟩ | ⟨bs, hone, -⟩
      · exact h
      · have hm : (⟨w.iteration + 1, w.gone d, ((rtfCarrierUpdate w.chann t.round).client d).state, bs.1⟩ : Message) ∈
            w.messages d ++ w.arrival t.round d := by
          rw [hone]
          exact List.mem_append_right _ (List.mem_singleton_self _)
        exact absurd (hgone _ hm) (lt_irrefl _)
    obtain ⟨hpid, hst⟩ := hD.vacant d hd hbefore
    have hempty : (w.chann.client d).state = .empty := by
      rcases hst with h | ⟨-, h⟩
      · exact h
      · exact absurd (hpassed d) h
    refine ⟨(U.pid d).trans hpid, ?_⟩
    rcases (arrival_none hW hfresh hd hnone).2 hempty with h | h
    · exact .inl h
    · exact .inr ⟨h, hnot d⟩

/-- After the turn of descriptor `i` the loop is through with it, and with no
other descriptor that it was not through with. -/
structure Advanced (data : Daemon) (i : ℕ) (data' : Daemon) : Prop where
  cursor : data.cursor = some i
  own : Passed data' i
  kept : ∀ d, Passed data d → Passed data' d
  other : ∀ d, d ≠ i → d ≤ data.chann.sock.connSetMax → Passed data' d → Passed data d

theorem advanced_turn {data d' : Daemon} {i : ℕ} (hW : Wired data) (hc : data.cursor = some i)
    (hT : Turned data.chann i d'.chann) :
    Advanced data i { d' with cursor := if i < rtfCarrierGetConn d'.chann then some (i + 1) else none } := by
  have hconn : rtfCarrierGetConn d'.chann = data.chann.sock.connSetMax := by
    unfold rtfCarrierGetConn usocketGetMaxfd
    rw [hT.socket, hT.highest]
    exact hW.maxfd_eq
  refine ⟨hc, ?_, ?_, ?_⟩
  · intro j hj
    obtain rfl := cursor_next hj
    omega
  · intro d hd j hj
    obtain rfl := cursor_next hj
    have := hd i hc
    omega
  · intro d hdi hle hd j hj
    rw [hc] at hj
    obtain rfl := Option.some.inj hj
    rw [hconn] at hd
    by_cases hlt : i < data.chann.sock.connSetMax
    · have := hd (i + 1) (if_pos hlt)
      omega
    · omega

/-- What a turn with descriptor `i` leaves: the other descriptors as they
were, and of `i` every message dealt with. -/
structure Attended (w : Traced) (i : ℕ) (w' : Traced) : Prop where
  turned : Turned w.chann i w'.chann
  advanced : Advanced w.toDaemon i w'.toDaemon
  messages : w'.messages = w.messages
  iteration : w'.iteration = w.iteration
  gone : ∀ d, w.gone d ≤ w'.gone d ∧ (d ≠ i → w'.gone d = w.gone d)
  dispatches : ∀ d, d ≠ i → w'.dispatches d = w.dispatches d
  done : ∀ e ∈ w'.dispatches i, e.iteration ≤ w.iteration
  once : ∀ m ∈ w.messages i, (w'.dispatches i).countP (·.iteration = m.iteration) =
    if m.state = .connected then 1 else 0
  only : ∀ e ∈ w'.dispatches i, ∃ m ∈ w.messages i,
    m.iteration = e.iteration ∧ m.client = e.client ∧ m.state = .connected ∧ m.bytes <+: e.request.1
  vacant : i ≠ w.chann.sock.socket → (∀ m ∈ w.messages i, m.client < w'.gone i) →
    (w'.chann.client i).pid = 0 ∧ (w'.chann.client i).state = .empty

theorem dispatching_attended {w' : Traced} {i : ℕ} (hD : Dispatching w) (hW' : Wired w'.toDaemon)
    (h : Attended w i w') : Dispatching w' := by
  obtain ⟨⟨hsock, hmax, hreq, hothers⟩, hadv, hmess, hit, hgone, hdis, hdone, honce, honly, hvacant⟩ := h
  have hwait : ∀ d, ¬ Passed w'.toDaemon d → d ≠ i ∧ ¬ Passed w.toDaemon d := by
    intro d hd
    refine ⟨?_, fun h => hd (hadv.kept d h)⟩
    rintro rfl
    exact hd hadv.own
  refine ⟨hW', ?_, ?_, ?_, ?_, ?_, ?_, ?_, ?_⟩
  · rw [hmess]
    exact hD.numbered
  · intro d m hm
    rw [hmess] at hm
    obtain ⟨h1, h2, h3, h4⟩ := hD.past d m hm
    rw [hit, hsock, hmax]
    exact ⟨h1, h2.trans (hgone d).1, h3, h4⟩
  · intro d hd hp m hm hm'
    obtain ⟨hdi, hp⟩ := hwait d hp
    rw [hsock] at hd
    rw [hmess] at hm
    rw [hit] at hm'
    rw [hreq, (hothers d hdi).1, (hothers d hdi).2.1, (hgone d).2 hdi]
    exact hD.waits d hd hp m hm hm'
  · intro d hd hp hcon hpos
    obtain ⟨hdi, hp⟩ := hwait d hp
    rw [hsock] at hd
    rw [(hothers d hdi).1] at hcon
    rw [(hothers d hdi).2.1] at hpos
    rw [hmess, hit]
    exact hD.arrived d hd hp hcon hpos
  · intro d e he
    rw [hit]
    by_cases hdi : d = i
    · subst hdi
      exact ⟨hdone e he, fun hp => absurd hadv.own hp⟩
    · rw [hdis d hdi] at he
      exact ⟨(hD.done d e he).1, fun hp => (hD.done d e he).2 (hwait d hp).2⟩
  · intro d m hm
    rw [hmess] at hm
    rw [hit]
    by_cases hdi : d = i
    · subst hdi
      refine (honce m hm).trans (if_congr ?_ rfl rfl)
      exact ⟨fun h => ⟨h, .inr hadv.own⟩, fun h => h.1⟩
    · rw [hdis d hdi, hD.once d m hm]
      refine if_congr (and_congr_right fun _ => or_congr_right ?_) rfl rfl
      exact ⟨hadv.kept d, hadv.other d hdi (hD.past d m hm).2.2.2⟩
  · intro d e he
    rw [hmess]
    by_cases hdi : d = i
    · subst hdi
      exact honly e he
    · rw [hdis d hdi] at he
      exact hD.only d e he
  · intro d hd hgone'
    rw [hsock] at hd
    rw [hmess] at hgone'
    by_cases hdi : d = i
    · subst hdi
      obtain ⟨hpid, hst⟩ := hvacant hd hgone'
      exact ⟨hpid, .inl hst⟩
    · rw [(hgone d).2 hdi] at hgone'
      rw [(hothers d hdi).1]
      obtain ⟨hpid, hst⟩ := hD.vacant d hd hgone'
      refine ⟨hpid, hst.imp_right ?_⟩
      rintro ⟨hdisc, hp⟩
      refine ⟨hdisc, fun hp' => hp (hadv.other d hdi ?_ hp')⟩
      exact (hD.wired.used d (by rw [hdisc]; decide)).1

/-- **A turn of the loop** deals with the message of its descriptor. -/
theorem attended_turn {i : ℕ} {d' : Daemon} {out : Out} (hD : Dispatching w) (hc : w.cursor = some i)
    (h : rtfDaemonHandleReq w.toDaemon i t.sent = .ok (out, d')) :
    Attended w i (w.after t out
      { d' with cursor := if i < rtfCarrierGetConn d'.chann then some (i + 1) else none }) := by
  have hW := hD.wired
  obtain ⟨hturn, -, hcase⟩ := handle_turned h
  have hadv := advanced_turn hW hc hturn
  have hnot : ¬ Passed w.toDaemon i := fun hp => lt_irrefl i (hp i hc)
  -- before the turn: the dispatches are of the messages of earlier iterations
  have hbefore : ∀ m ∈ w.messages i, (w.dispatches i).countP (·.iteration = m.iteration) =
      if m.state = .connected ∧ m.iteration < w.iteration then 1 else 0 := by
    intro m hm
    refine (hD.once i m hm).trans (if_congr (and_congr_right fun _ => ?_) rfl rfl)
    exact ⟨fun h => h.resolve_right hnot, .inl⟩
  -- so where the slot is not connected, or nothing came, there is nothing to do
  have hquiet : ((w.chann.client i).state = .connected → ¬ 0 < w.chann.lastN i) → ∀ m ∈ w.messages i,
      (w.dispatches i).countP (·.iteration = m.iteration) = if m.state = .connected then 1 else 0 := by
    intro hno m hm
    refine (hbefore m hm).trans (if_congr ⟨fun h => h.1, fun hst => ⟨hst, ?_⟩⟩ rfl rfl)
    obtain ⟨hle, -, hi, -⟩ := hD.past i m hm
    by_contra hlt
    obtain ⟨hms, -, -, hpos⟩ := hD.waits i hi hnot m hm (by omega)
    exact hno (hms.symm.trans hst) hpos
  rcases hcase with ⟨hf, rfl, hst, hpid, -⟩ | ⟨hst, hpos, ⟨rep, rfl⟩, -, -, -⟩ | ⟨hf, hu, rfl, rfl⟩
  · -- the client of the descriptor is gone
    have hno : (w.chann.client i).state = .connected → ¬ 0 < w.chann.lastN i := by
      intro hcon
      rcases hf with hf | hf
      · exact absurd (hf.symm.trans hcon) (by decide)
      · exact absurd (hf.symm.trans hcon) (by decide)
    refine ⟨hturn, hadv, rfl, rfl, ?_, fun _ _ => rfl, ?_, hquiet hno, hD.only i, ?_⟩
    · intro d
      show w.gone d ≤ Function.update w.gone i (w.gone i + 1) d ∧
        (d ≠ i → Function.update w.gone i (w.gone i + 1) d = w.gone d)
      refine ⟨?_, fun hdi => Function.update_of_ne hdi _ _⟩
      by_cases hdi : d = i
      · subst hdi
        rw [Function.update_self]
        omega
      · rw [Function.update_of_ne hdi]
    · exact fun e he => (hD.done i e he).1
    · exact fun _ _ => ⟨hpid, hst⟩
  · -- its message is dispatched
    have hi := (hW.used i (by rw [hst]; decide)).2
    obtain ⟨m₀, hm₀, hit₀⟩ := hD.arrived i hi hnot hst hpos
    obtain ⟨hst₀, hcl₀, hby₀, -⟩ := hD.waits i hi hnot m₀ hm₀ hit₀
    have hdis : (w.after t (.handled i (w.chann.lastReq i) rep)
        { d' with cursor := if i < rtfCarrierGetConn d'.chann then some (i + 1) else none }).dispatches i =
          w.dispatches i ++ [⟨w.iteration, w.gone i, w.chann.lastReq i⟩] := Function.update_self ..
    refine ⟨hturn, hadv, rfl, rfl, fun d => ⟨le_rfl, fun _ => rfl⟩, ?_, ?_, ?_, ?_, ?_⟩
    · exact fun d hdi => Function.update_of_ne hdi _ _
    · intro e he
      rw [hdis] at he
      rcases List.mem_append.mp he with he | he
      · exact (hD.done i e he).1
      · rw [List.mem_singleton.mp he]
    · intro m hm
      rw [hdis, List.countP_append, hbefore m hm, List.countP_singleton]
      obtain ⟨hle, -⟩ := hD.past i m hm
      by_cases hlt : m.iteration < w.iteration
      · simp [hlt, hlt.ne']
      · have hit : w.iteration = m.iteration := by omega
        obtain ⟨hms, -⟩ := hD.waits i hi hnot m hm hit.symm
        simp [hms, hst, hit]
    · intro e he
      rw [hdis] at he
      rcases List.mem_append.mp he with he | he
      · exact hD.only i e he
      · rw [List.mem_singleton.mp he]
        exact ⟨m₀, hm₀, hit₀, hcl₀, hst₀.trans hst, hby₀⟩
    · intro _ hgone
      have hlt : m₀.client < w.gone i := hgone m₀ hm₀
      omega
  · -- nothing is waiting
    have hno : (w.chann.client i).state = .connected → ¬ 0 < w.chann.lastN i := by
      intro hcon hpos
      have hup : rtfDaemonCheckForUpdate w.toDaemon i = true :=
        Bool.and_eq_true_iff.mpr ⟨decide_eq_true hcon, decide_eq_true hpos⟩
      rw [hup] at hu
      cases hu
    refine ⟨hturn, hadv, rfl, rfl, fun d => ⟨le_rfl, fun _ => rfl⟩, fun _ _ => rfl, ?_, hquiet hno, hD.only i, ?_⟩
    · exact fun e he => (hD.done i e he).1
    · intro hi hgone
      obtain ⟨hpid, hst⟩ := hD.vacant i hi hgone
      refine ⟨hpid, ?_⟩
      rcases hst with hst | ⟨hst, -⟩
      · exact hst
      · exact absurd (Or.inr hst) hf

/-- **A step of the loop** keeps the account. -/
theorem dispatching_step {w' : Traced} {out : Out} (hD : Dispatching w) (hs : Sound w.toDaemon t)
    (h : tracedStep w t = .ok (out, w')) : Dispatching w' := by
  obtain ⟨⟨out', data⟩, hd, hrest⟩ := bind_ok.mp h
  simp only [Except.ok.injEq, Prod.mk.injEq] at hrest
  obtain ⟨rfl, rfl⟩ := hrest
  rcases daemonStep_ok hd with ⟨hc, rfl, rfl⟩ | ⟨i, d', hc, hd', rfl⟩
  · exact dispatching_polled hD hc hs
  · have hW' := wired_turn hD.wired hc hd'
    have hA := attended_turn hD hc hd'
    refine dispatching_attended hD ?_ hA
    rcases handle_turned hd' with ⟨-, -, ⟨-, rfl, -⟩ | ⟨-, -, ⟨rep, rfl⟩, -⟩ | ⟨-, -, rfl, -⟩⟩
    · exact hW'
    · exact hW'
    · exact hW'

end Steps

theorem dispatching_start (socket : ℕ) (s : Sched) : Dispatching (Traced.start (Daemon.start socket s)) := by
  refine ⟨wired_start socket s, ?_, ?_, ?_, ?_, ?_, ?_, ?_, ?_⟩
  · exact fun _ => List.Pairwise.nil
  · exact fun _ _ hm => absurd hm List.not_mem_nil
  · exact fun _ _ _ _ hm => absurd hm List.not_mem_nil
  · intro _ _ _ hcon
    cases hcon
  · exact fun _ _ he => absurd he List.not_mem_nil
  · exact fun _ _ hm => absurd hm List.not_mem_nil
  · exact fun _ _ he => absurd he List.not_mem_nil
  · exact fun _ _ _ => ⟨rfl, .inl rfl⟩

/-- **Exactly one dispatch** for every message that leaves its slot
`CONNECTED`, none for another, in every run of the loop. -/
theorem dispatch_run {socket : ℕ} {s : Sched} {w : Traced}
    (hrun : Reach tracedStep (fun w t => Sound w.toDaemon t) (Traced.start (Daemon.start socket s)) w) :
    ExactlyOnce w := by
  have hD : Dispatching w := by
    apply hrun.inv (dispatching_start socket s)
    intro w t out w' hI hs h
    exact dispatching_step hI hs h
  exact hD.exactlyOnce

/-! ### A descriptor that is used again -/

open FramingExample

/-- A client sends a request and leaves; the next one on its descriptor sends 40 bytes. -/
theorem dispatch_reuse : ∃ w, runGood tracedStep (fun w t => Sound w.toDaemon t)
    (accepts ++ gives (create 5).1 ++ gives [] ++ accepts ++ gives ((create 7).1.take 40))
    (Traced.start (Daemon.start 3 (Sched.start [] BooksExample.kernel))) = some w ∧
      (w.dispatches 4).map (fun e => (e.iteration, e.client)) = [(2, 0), (5, 1)] ∧ ExactlyOnce w := by
  have hend : (runGood tracedStep (fun w t => Sound w.toDaemon t)
      (accepts ++ gives (create 5).1 ++ gives [] ++ accepts ++ gives ((create 7).1.take 40))
      (Traced.start (Daemon.start 3 (Sched.start [] BooksExample.kernel)))).map
        (fun w => (w.dispatches 4).map fun e => (e.iteration, e.client)) = some [(2, 0), (5, 1)] := by decide +kernel
  obtain ⟨w, hw, hv⟩ := Option.map_eq_some_iff.mp hend
  exact ⟨w, hw, hv, dispatch_run (reach_runGood hw)⟩

end Retif
