/-
# Requests on the stream

A client's requests are records of 80 bytes on a stream, and a `recv` gives
any number of bytes. The carrier takes every count above 0 for a request: what
is dispatched after a short `recv` is the new bytes with the rest of the
request before. Where every `recv` gives a whole record, the requests handled
are those sent, in their order.

What was received and handled on a connection is proof-only state here; both
start anew when the descriptor is given to another client.

Key definitions: `Framed`, `framedStep`, `Intact`, `WholeRecords`, `Tracked`,
`TrackedAt`.
Key theorems: `tracked_step`, `framing_run`, `not_framing_run`.
-/
import Retif.Loop
import Retif.Books

namespace Retif

open Memory

/-- The daemon, with the bytes received on each connection, one `recv` after
the other, and the requests handled. -/
structure Framed extends Daemon where
  delivered : ℕ → List (List UInt8)
  handled : ℕ → List Request

def Framed.start (data : Daemon) : Framed := { data with delivered := fun _ => [], handled := fun _ => [] }

/-- The bytes a `recv` adds to those received. -/
def Recv.chunk {size : ℕ} : Recv size → List (List UInt8)
  | none => []
  | some bs => if bs.1.length = 0 then [] else [bs.1]

/-- The state after a step that did `out`. -/
def Framed.after (w : Framed) (t : Tick) (out : Out) (data : Daemon) : Framed :=
  match out with
  | .polled =>
    { data with
      delivered := fun d =>
        if Accepts t.round w.chann.sock d then []
        else if readable t.round w.chann.sock d then w.delivered d ++ (t.round.recv d).chunk
        else w.delivered d
      handled := fun d => if Accepts t.round w.chann.sock d then [] else w.handled d }
  | .handled i req _ =>
    { data with delivered := w.delivered, handled := Function.update w.handled i (w.handled i ++ [req]) }
  | _ => { data with delivered := w.delivered, handled := w.handled }

def framedStep (w : Framed) (t : Tick) : Except Fault (Out × Framed) := do
  let (out, data) ← daemonStep w.toDaemon t
  .ok (out, w.after t out data)

/-- Whatever the client has sent of which the bytes received are the
beginning: the requests handled are the first ones sent, and all their bytes
were received. -/
def Intact (w : Framed) : Prop :=
  ∀ d, d ≠ w.chann.sock.socket → ∀ sent : List Request,
    (w.delivered d).flatten <+: (sent.map Subtype.val).flatten →
      w.handled d <+: sent ∧ REQUEST_SIZE * (w.handled d).length ≤ (w.delivered d).flatten.length

/-- Every `recv` that gives bytes gives a whole record. -/
def WholeRecords (data : Daemon) (t : Tick) : Prop :=
  data.cursor = none → ∀ d ∈ List.range (data.chann.sock.connSetMax + 1), d ≠ data.chann.sock.socket →
    readable t.round data.chann.sock d → ∀ bs ∈ t.round.recv d, bs.1.length = 0 ∨ bs.1.length = REQUEST_SIZE

instance (data : Daemon) (t : Tick) : Decidable (WholeRecords data t) := by
  unfold WholeRecords; infer_instance

/-! ### The invariant -/

/-- The request that was received on `d` and is not handled yet. -/
def pending (data : Daemon) (d : ℕ) : List (List UInt8) :=
  if (∃ i ∈ data.cursor, i ≤ d) ∧ 0 < data.chann.lastN d then [(data.chann.lastReq d).1] else []

/-- What was received on each connection is what was handled, and what is pending. -/
structure Tracked (w : Framed) : Prop where
  wired : Wired w.toDaemon
  whole : ∀ d, d ≠ w.chann.sock.socket → ∀ bs ∈ w.delivered d, bs.length = REQUEST_SIZE
  first : ∀ d, d ≠ w.chann.sock.socket → (w.handled d).map Subtype.val <+: w.delivered d
  all : ∀ d, d ≠ w.chann.sock.socket → (w.chann.client d).state = .connected →
    w.delivered d = (w.handled d).map Subtype.val ++ pending w.toDaemon d
  fresh : ∀ d, d ≠ w.chann.sock.socket → (w.chann.client d).state = .empty → w.chann.sock.connSet d →
    w.delivered d = [] ∧ w.handled d = []

/-- What a round leaves waiting on `d`. -/
def waiting (c : Carrier) (d : ℕ) : List (List UInt8) := if 0 < c.lastN d then [(c.lastReq d).1] else []

/-- `Tracked` of one descriptor, with the bytes received and the requests handled
on it, its client's state, whether it is in the set, and what waits. -/
structure TrackedAt (delivered : List (List UInt8)) (handled : List Request) (st : ClientState) (set : Bool)
    (waiting : List (List UInt8)) : Prop where
  whole : ∀ bs ∈ delivered, bs.length = REQUEST_SIZE
  first : handled.map Subtype.val <+: delivered
  all : st = .connected → delivered = handled.map Subtype.val ++ waiting
  fresh : st = .empty → set → delivered = [] ∧ handled = []

theorem tracked_of_at {w : Framed} (hW : Wired w.toDaemon) (hat : ∀ d, d ≠ w.chann.sock.socket →
    TrackedAt (w.delivered d) (w.handled d) (w.chann.client d).state (w.chann.sock.connSet d) (pending w.toDaemon d)) :
    Tracked w where
  wired := hW
  whole d hd := (hat d hd).whole
  first d hd := (hat d hd).first
  all d hd := (hat d hd).all
  fresh d hd := (hat d hd).fresh

/-- Records that were received whole are the records sent. -/
theorem Tracked.intact {w : Framed} (hT : Tracked w) : Intact w := by
  intro d hd sent hsent
  have hwhole := hT.whole d hd
  have hlen : ∀ bs ∈ sent.map Subtype.val, bs.length = REQUEST_SIZE := by
    intro bs hbs
    obtain ⟨r, -, rfl⟩ := List.mem_map.mp hbs
    exact r.2
  have hpre := (hT.first d hd).trans (prefix_of_flatten (by decide) hwhole hlen hsent)
  refine ⟨?_, ?_⟩
  · obtain ⟨rest, hrest⟩ := hpre
    obtain ⟨l₁, l₂, hl, hmap, -⟩ := List.map_eq_append_iff.mp hrest.symm
    rw [hl, List.map_injective_iff.mpr Subtype.val_injective hmap]
    exact List.prefix_append _ _
  · have hle := (hT.first d hd).length_le
    rw [List.length_map] at hle
    rw [flatten_length hwhole]
    exact Nat.mul_le_mul_left _ hle

theorem nextState_connected {st : ClientState} {n : ℤ} (h : nextState st n = .connected) (h0 : n ≤ 0) :
    st = .connected := by
  unfold nextState at h
  split_ifs at h with h1 h2 h3 h4
  · rw [h1.1] at h
    cases h
  · omega
  · exact h3.1

theorem nextState_connected_or_empty {st : ClientState} {n : ℤ} (h : nextState st n = .connected) :
    st = .empty ∨ st = .connected := by
  unfold nextState at h
  split_ifs at h with h1 h2 h3 h4
  · exact .inl h1.1
  · exact .inl h2.1
  · exact .inr h3.1

theorem nextState_empty {st : ClientState} {n : ℤ} (h : nextState st n = .empty) : st = .empty ∧ n = 0 := by
  unfold nextState at h
  split_ifs at h with h1 h2 h3 h4
  · exact h1
  · rw [h] at h3
    cases h3.1

section Steps

variable {w : Framed} {t : Tick}

/-- The whole record a `recv` gave is the request that waits. -/
theorem received_whole {b : Request} {bs : {bs : List UInt8 // bs.length ≤ REQUEST_SIZE}}
    (h : bs.1.length = REQUEST_SIZE) : (received b bs).1 = bs.1 :=
  store_all (h.trans b.2.symm)

section Polled

variable {d : ℕ}

/-- Between two rounds nothing waits. -/
theorem Tracked.idle (hT : Tracked w) (hc : w.cursor = none) (hd : d ≠ w.chann.sock.socket)
    (hst : (w.chann.client d).state = .connected) : w.delivered d = (w.handled d).map Subtype.val := by
  have hpend : pending w.toDaemon d = [] := by
    unfold pending
    rw [hc]
    simp
  have hall := hT.all d hd hst
  rwa [hpend, List.append_nil] at hall

/-- A descriptor that was just accepted is not read from, and no client is connected on it. -/
theorem polled_accepted {c' : Carrier} (hT : Tracked w) (hc : w.cursor = none) (hs : Sound w.toDaemon t)
    (U : Updated t.round w.chann c') (hd : d ≠ w.chann.sock.socket) (hacc : Accepts t.round w.chann.sock d) :
    TrackedAt [] [] (c'.client d).state (c'.sock.connSet d) (waiting c' d) := by
  have hout := (hs hc d hacc.2).1
  have hst := hT.wired.empty hc hd hout
  have hnr : readable t.round w.chann.sock d = false := by
    by_contra hr
    have := (readable_connSet (Bool.eq_true_of_not_eq_false hr)).1
    rw [hout] at this
    cases this
  have hempty : (c'.client d).state = .empty := by
    rw [U.state d hd, hst]
    split
    · rename_i hle
      rw [U.lastN d hd, hnr, if_neg (by simp), if_pos hle.2]
      rfl
    · rfl
  exact ⟨by simp, List.prefix_rfl, by simp [hempty], by simp⟩

/-- A `recv` that gives nothing closes the connection, one that gives a whole record leaves it waiting. -/
theorem polled_read {c' : Carrier} (hT : Tracked w) (hc : w.cursor = none) (hg : WholeRecords w.toDaemon t)
    (U : Updated t.round w.chann c') (hd : d ≠ w.chann.sock.socket) (hr : readable t.round w.chann.sock d = true) :
    TrackedAt (w.delivered d ++ (t.round.recv d).chunk) (w.handled d) (c'.client d).state (c'.sock.connSet d)
      (waiting c' d) := by
  obtain ⟨hin, hsome⟩ := readable_connSet hr
  have hle := hT.wired.ranged d hin
  have hmax := hT.wired.maxfd_eq
  have hn : c'.lastN d = (t.round.recv d).count := by
    rw [U.lastN d hd, if_pos hr]
  have hst : (c'.client d).state = nextState (w.chann.client d).state (c'.lastN d) := by
    rw [U.state d hd, if_pos ⟨hsome, by omega⟩]
  rcases hrec : t.round.recv d with _ | bs
  · -- the `recv` failed
    have hn1 : c'.lastN d = -1 := by rw [hn, hrec]; rfl
    rw [hn1, nextState_neg] at hst
    simp only [Recv.chunk, List.append_nil, hst]
    exact ⟨hT.whole d hd, hT.first d hd, by simp, by simp⟩
  · by_cases h0 : bs.1.length = 0
    · -- the client has closed
      have hn1 : c'.lastN d = -1 := by rw [hn, hrec]; simp [Recv.count, h0]
      rw [hn1, nextState_neg] at hst
      simp only [Recv.chunk, if_pos h0, List.append_nil, hst]
      exact ⟨hT.whole d hd, hT.first d hd, by simp, by simp⟩
    · -- a whole record
      have hrange : d ∈ List.range (w.chann.sock.connSetMax + 1) := List.mem_range.mpr (by omega)
      have hlen : bs.1.length = REQUEST_SIZE := (hg hc d hrange hd hr bs hrec).resolve_left h0
      have hcount : c'.lastN d = bs.1.length := by rw [hn, hrec]; simp [Recv.count, h0]
      have hpos : 0 < c'.lastN d := by
        rw [hcount]
        exact_mod_cast Nat.pos_of_ne_zero h0
      have hreq : (c'.lastReq d).1 = bs.1 := by
        rw [U.lastReq d hd, if_pos hr, hrec]
        exact received_whole hlen
      simp only [Recv.chunk, if_neg h0]
      refine ⟨?_, (hT.first d hd).trans (List.prefix_append _ _), ?_, ?_⟩
      · intro x hx
        rcases List.mem_append.mp hx with hx | hx
        · exact hT.whole d hd x hx
        · rw [List.mem_singleton.mp hx]
          exact hlen
      · intro hcon
        rw [waiting, if_pos hpos, hreq]
        congr 1
        -- the slot was empty, or connected before
        rcases nextState_connected_or_empty (hst.symm.trans hcon) with hold | hold
        · obtain ⟨h1, h2⟩ := hT.fresh d hd hold hin
          rw [h1, h2]
          rfl
        · exact hT.idle hc hd hold
      · intro hemp
        rw [hst] at hemp
        have := (nextState_empty hemp).2
        omega

/-- Where nothing is read nothing waits, and the client is the one of before. -/
theorem polled_idle {c' : Carrier} (hT : Tracked w) (hc : w.cursor = none) (U : Updated t.round w.chann c')
    (hd : d ≠ w.chann.sock.socket) (hacc : ¬ Accepts t.round w.chann.sock d)
    (hnr : readable t.round w.chann.sock d = false) :
    TrackedAt (w.delivered d) (w.handled d) (c'.client d).state (c'.sock.connSet d) (waiting c' d) := by
  have hmax := hT.wired.maxfd_eq
  refine ⟨hT.whole d hd, hT.first d hd, ?_, ?_⟩
  · intro hcon
    have hold : (w.chann.client d).state = .connected ∧ ¬ 0 < c'.lastN d := by
      rw [U.state d hd] at hcon
      split at hcon
      · rename_i hle
        have hn : c'.lastN d = 0 := by rw [U.lastN d hd, hnr, if_neg (by simp), if_pos hle.2]
        rw [hn] at hcon ⊢
        exact ⟨nextState_connected hcon le_rfl, lt_irrefl _⟩
      · refine ⟨hcon, ?_⟩
        have hle := (hT.wired.used d (by rw [hcon]; decide)).1
        rw [U.lastN d hd, hnr, if_neg (by simp), if_pos (by omega)]
        exact lt_irrefl _
    rw [waiting, if_neg hold.2, List.append_nil]
    exact hT.idle hc hd hold.1
  · intro hemp hset
    have hacc' : ¬ (readable t.round w.chann.sock w.chann.sock.socket ∧ t.round.accepted = some d) := hacc
    rw [U.connSet d hd, if_neg (by simp [hnr]), if_neg hacc'] at hset
    refine hT.fresh d hd ?_ hset
    rw [U.state d hd] at hemp
    split at hemp
    · exact (nextState_empty hemp).1
    · exact hemp

end Polled

theorem tracked_polled (hT : Tracked w) (hc : w.cursor = none) (hs : Sound w.toDaemon t)
    (hg : WholeRecords w.toDaemon t) :
    Tracked (w.after t .polled { w.toDaemon with chann := rtfCarrierUpdate w.chann t.round, cursor := some 0 }) := by
  have hW' := wired_polled hT.wired hc (hs hc)
  have U := update_fields hT.wired.ranged (hs hc)
  set c' := rtfCarrierUpdate w.chann t.round with hc'
  set w' := w.after t .polled { w.toDaemon with chann := c', cursor := some 0 } with hw'
  -- what the poll did to descriptor `d`: accepted it, read from it, or left it alone
  have hat : ∀ d, d ≠ w.chann.sock.socket →
      TrackedAt (w'.delivered d) (w'.handled d) (c'.client d).state (c'.sock.connSet d) (waiting c' d) := by
    intro d hd
    simp only [hw', Framed.after]
    by_cases hacc : Accepts t.round w.chann.sock d
    · simp only [if_pos hacc]
      exact polled_accepted hT hc hs U hd hacc
    · simp only [if_neg hacc]
      rcases hr : readable t.round w.chann.sock d with _ | _
      · exact polled_idle hT hc U hd hacc hr
      · exact polled_read hT hc hg U hd hr
  apply tracked_of_at hW'
  intro d hd
  have hwaits : pending w'.toDaemon d = waiting c' d := by
    unfold pending waiting
    refine if_congr ?_ rfl rfl
    simp [hw', Framed.after]
  rw [hwaits]
  apply hat
  rw [← U.socket]
  exact hd

/-- The request that waits on another descriptor waits on. -/
theorem pending_other {data d' : Daemon} {i d : ℕ} (hW : Wired data) (hc : data.cursor = some i)
    (hT : Turned data.chann i d'.chann) (hdi : d ≠ i) (hst : (data.chann.client d).state = .connected) :
    pending { d' with cursor := if i < rtfCarrierGetConn d'.chann then some (i + 1) else none } d =
      pending data d := by
  have hle := (hW.used d (by rw [hst]; decide)).1
  have hconn : rtfCarrierGetConn d'.chann = data.chann.sock.connSetMax := by
    unfold rtfCarrierGetConn usocketGetMaxfd
    rw [hT.socket, hT.highest]
    exact hW.maxfd_eq
  unfold pending
  dsimp only
  rw [hT.lastReq, (hT.others d hdi).2.1, hconn, hc]
  refine if_congr (and_congr_left fun _ => ?_) rfl rfl
  split <;> simp <;> omega

section Turn

variable {i d : ℕ} {d' : Daemon}

/-- With a descriptor the loop is through with, nothing waits. -/
theorem pending_done : pending { d' with cursor := if i < rtfCarrierGetConn d'.chann then some (i + 1) else none } i =
    [] := by
  apply if_neg
  rintro ⟨⟨j, hj, hle⟩, -⟩
  have := cursor_next hj
  omega

/-- A turn leaves the other descriptors as they are. -/
theorem turn_other (hT : Tracked w) (hc : w.cursor = some i) (hturn : Turned w.chann i d'.chann)
    (hd : d ≠ w.chann.sock.socket) (hdi : d ≠ i) :
    TrackedAt (w.delivered d) (w.handled d) (d'.chann.client d).state (d'.chann.sock.connSet d)
      (pending { d' with cursor := if i < rtfCarrierGetConn d'.chann then some (i + 1) else none } d) := by
  obtain ⟨hclient, -, hset⟩ := hturn.others d hdi
  rw [hclient, hset]
  refine ⟨hT.whole d hd, hT.first d hd, ?_, hT.fresh d hd⟩
  intro hst
  rw [pending_other hT.wired hc hturn hdi hst]
  exact hT.all d hd hst

/-- The request that is handled is what waited. -/
theorem turn_handled {st : ClientState} {set : Bool} (hT : Tracked w) (hc : w.cursor = some i)
    (hi : i ≠ w.chann.sock.socket) (hst : (w.chann.client i).state = .connected) (hpos : 0 < w.chann.lastN i)
    (hstay : st = .connected ∨ st = .error) :
    TrackedAt (w.delivered i) (w.handled i ++ [w.chann.lastReq i]) st set [] := by
  have hwait : pending w.toDaemon i = [(w.chann.lastReq i).1] := by
    unfold pending
    rw [if_pos ⟨⟨i, hc, le_rfl⟩, hpos⟩]
  have hall : w.delivered i = (w.handled i ++ [w.chann.lastReq i]).map Subtype.val := by
    rw [hT.all i hi hst, hwait, List.map_append]
    rfl
  refine ⟨hT.whole i hi, ?_, ?_, ?_⟩
  · rw [hall]
  · intro _
    rw [List.append_nil]
    exact hall
  · rintro rfl
    rcases hstay with h | h <;> cases h

/-- Where no update shows, nothing waited. -/
theorem turn_quiet (hT : Tracked w) (hi : i ≠ w.chann.sock.socket) (hu : rtfDaemonCheckForUpdate w.toDaemon i = false) :
    TrackedAt (w.delivered i) (w.handled i) (w.chann.client i).state (w.chann.sock.connSet i) [] := by
  refine ⟨hT.whole i hi, hT.first i hi, ?_, hT.fresh i hi⟩
  intro hst
  have hno : ¬ 0 < w.chann.lastN i := by
    intro hpos
    have hup : rtfDaemonCheckForUpdate w.toDaemon i = true :=
      Bool.and_eq_true_iff.mpr ⟨decide_eq_true hst, decide_eq_true hpos⟩
    rw [hup] at hu
    cases hu
  have hbefore : pending w.toDaemon i = [] := if_neg fun hp => hno hp.2
  have hall := hT.all i hi hst
  rwa [hbefore] at hall

end Turn

theorem tracked_turn {i : ℕ} {d' : Daemon} {out : Out} (hT : Tracked w) (hc : w.cursor = some i)
    (h : rtfDaemonHandleReq w.toDaemon i t.sent = .ok (out, d')) :
    Tracked (w.after t out
      { d' with cursor := if i < rtfCarrierGetConn d'.chann then some (i + 1) else none }) := by
  have hW' := wired_turn hT.wired hc h
  obtain ⟨hturn, -, hcase⟩ := handle_turned h
  have hsock : ∀ d, d ≠ d'.chann.sock.socket → d ≠ w.chann.sock.socket := by
    intro d hd
    rwa [← hturn.socket]
  rcases hcase with ⟨-, rfl, hst, -, hset⟩ | ⟨hst, hpos, ⟨rep, rfl⟩, -, -, hstay⟩ | ⟨-, hu, rfl, hsame⟩
  · -- the client of the descriptor is gone
    apply tracked_of_at hW'
    intro d hd
    have hne := hsock d hd
    by_cases hdi : d = i
    · subst hdi
      have hgone : TrackedAt (w.delivered d) (w.handled d) (d'.chann.client d).state (d'.chann.sock.connSet d)
          (pending { d' with cursor := if d < rtfCarrierGetConn d'.chann then some (d + 1) else none } d) :=
        ⟨hT.whole d hne, hT.first d hne, by simp [hst], by simp [hset]⟩
      exact hgone
    · have hother := turn_other hT hc hturn hne hdi
      exact hother
  · -- its request is handled
    apply tracked_of_at hW'
    intro d hd
    have hne := hsock d hd
    simp only [Framed.after]
    by_cases hdi : d = i
    · subst hdi
      rw [Function.update_self, pending_done]
      exact turn_handled hT hc hne hst hpos hstay
    · rw [Function.update_of_ne hdi]
      exact turn_other hT hc hturn hne hdi
  · -- nothing waited on it
    apply tracked_of_at hW'
    intro d hd
    have hne := hsock d hd
    by_cases hdi : d = i
    · subst hdi
      simp only [Framed.after]
      rw [pending_done, hsame]
      exact turn_quiet hT hne hu
    · have hother := turn_other hT hc hturn hne hdi
      exact hother

/-- **A step of the loop** loses no record and adds none. -/
theorem tracked_step {w' : Framed} {out : Out} (hT : Tracked w) (hs : Sound w.toDaemon t)
    (hg : WholeRecords w.toDaemon t) (h : framedStep w t = .ok (out, w')) : Tracked w' := by
  obtain ⟨⟨out', data⟩, hd, h⟩ := bind_ok.mp h
  cases h
  rcases daemonStep_ok hd with ⟨hc, rfl, rfl⟩ | ⟨i, d', hc, hd', rfl⟩
  · exact tracked_polled hT hc hs hg
  · exact tracked_turn hT hc hd'

end Steps

theorem tracked_start (socket : ℕ) (s : Sched) : Tracked (Framed.start (Daemon.start socket s)) := by
  refine ⟨wired_start socket s, ?_, ?_, ?_, ?_⟩
  · intro d _ bs hbs
    cases hbs
  · intro d _
    exact List.prefix_rfl
  · intro d _ hst
    cases hst
  · intro d _ _ _
    exact ⟨rfl, rfl⟩

/-- **Requests are handled as they were sent** in every run in which each
`recv` that gives bytes gives a whole record. -/
theorem framing_run {socket : ℕ} {s : Sched} {w : Framed}
    (hrun : Reach framedStep (fun w t => Sound w.toDaemon t ∧ WholeRecords w.toDaemon t)
      (Framed.start (Daemon.start socket s)) w) : Intact w := by
  have hT : Tracked w := by
    refine hrun.inv (tracked_start socket s) ?_
    intro w t out w' hI hg h
    exact tracked_step hI hg.1 hg.2 h
  exact hT.intact

/-! ### A short read -/

namespace FramingExample

/-- A connection is accepted on descriptor 4, and the loop takes its turns. -/
def accepts : List Tick := List.replicate 6 (Tick.reading (· = 3) (some 4) [])

/-- The `recv` on descriptor 4 gives `bs`, and the loop takes its turns. -/
def gives (bs : List UInt8) : List Tick := List.replicate 6 (Tick.reading (· = 4) none bs)

/-- Two requests of a client; they differ in the priority, which comes after byte 40. -/
def create (priority : UInt32) : Request :=
  Request.setParam (Request.setType (Buf.zero REQUEST_SIZE) .taskCreate)
    { Params.zero with runtime := 10, period := 100, priority := priority }

def start : Framed := Framed.start (Daemon.start 3 (Sched.start [] BooksExample.kernel))

end FramingExample

open FramingExample

/-- Two whole records are handled, in their order. -/
theorem framing_twoCreates : ∃ w, runGood framedStep (fun w t => Sound w.toDaemon t ∧ WholeRecords w.toDaemon t)
    (accepts ++ gives (create 5).1 ++ gives (create 7).1) start = some w ∧
      w.handled 4 = [create 5, create 7] ∧ Intact w := by
  have hend : (runGood framedStep (fun w t => Sound w.toDaemon t ∧ WholeRecords w.toDaemon t)
      (accepts ++ gives (create 5).1 ++ gives (create 7).1) start).map (fun w => w.handled 4) =
        some [create 5, create 7] := by decide +kernel
  obtain ⟨w, hw, hv⟩ := Option.map_eq_some_iff.mp hend
  exact ⟨w, hw, hv, framing_run (reach_runGood hw)⟩

/-- Of the second request 40 bytes have come: it is handled with the priority of the first. -/
theorem not_framing_run : ¬ ∀ (socket : ℕ) (s : Sched) (w : Framed),
    Reach framedStep (fun w t => Sound w.toDaemon t) (Framed.start (Daemon.start socket s)) w → Intact w := by
  intro h
  have hend : (runGood framedStep (fun w t => Sound w.toDaemon t)
      (accepts ++ gives (create 5).1 ++ gives ((create 7).1.take 40)) start).map
        (fun w => (w.chann.sock.socket, w.handled 4, w.delivered 4)) =
          some (3, [create 5, create 5], [(create 5).1, (create 7).1.take 40]) := by decide +kernel
  obtain ⟨w, hw, hv⟩ := Option.map_eq_some_iff.mp hend
  simp only [Prod.mk.injEq] at hv
  obtain ⟨hsock, hhandled, hdelivered⟩ := hv
  have hI := h 3 _ w (reach_runGood hw) 4 (by omega) [create 5, create 7]
    (by rw [hdelivered]; exact of_decide_eq_true (by decide +kernel))
  rw [hhandled] at hI
  exact absurd hI.1 (by decide +kernel)

end Retif
