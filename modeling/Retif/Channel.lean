/-
# The server side of the channel

`usocket.c` and the carrier half of `retif_channel.c`: one round of `select`,
`accept` and `recv` over the descriptors, and the client states that follow
from the byte counts. What the kernel answers in a round is given; a `recv`
writes the bytes it got at the start of the descriptor's request buffer and
leaves the rest of it as it was.

Descriptors are natural numbers below `FD_SETSIZE`, the tables maps from them.

Key definitions: `Carrier`, `Round`, `usocketRecvall`, `nextState`,
`rtfCarrierUpdate`.
Key theorems: `recvall_fields`, `update_fields`.
-/
import Retif.Wire

namespace Retif

open Memory

/-- `struct usocket`: the main socket, the highest descriptor and the set listened to. -/
structure Usocket where
  socket : ℕ
  connSetMax : ℕ
  connSet : ℕ → Bool

/-- `struct rtf_client`. -/
structure Client where
  state : ClientState
  pid : Pid

/-- `struct rtf_carrier`. -/
structure Carrier where
  sock : Usocket
  lastN : ℕ → ℤ
  lastReq : ℕ → Request
  client : ℕ → Client

/-- What a `recv` of up to `size` bytes gives; `none` is an error, no byte at
all means that the other side has closed. -/
abbrev Recv (size : ℕ) := Option {bs : List UInt8 // bs.length ≤ size}

/-- The buffer after a `recv`. -/
def received {size : ℕ} (b : Buf size) (bs : {bs : List UInt8 // bs.length ≤ size}) : Buf size :=
  b.store 0 bs.1 (by have := bs.2; omega)

/-- What the kernel answers in one round: which descriptors `select` finds
readable (`none` when it fails), the descriptor of the connection that is
accepted, and what each `recv` gives. -/
structure Round where
  ready : Option (ℕ → Bool)
  accepted : Option ℕ
  recv : ℕ → Recv REQUEST_SIZE

/-! ### `usocket.c` -/

def usocketGetMaxfd (us : Usocket) : ℕ := if us.connSetMax > us.socket then us.connSetMax else us.socket

/-- `usocket_add_connections`, once the connection is accepted. -/
def usocketAddConnections (us : Usocket) (newfd : ℕ) : Usocket :=
  { us with
    connSet := Function.update us.connSet newfd true
    connSetMax := if us.connSetMax > newfd then us.connSetMax else newfd }

def usocketRemoveConnection (us : Usocket) (fd : ℕ) : Usocket :=
  { us with connSet := Function.update us.connSet fd false }

/-- One turn of the loop of `usocket_recvall`; `temp` is what `select` left of the set. -/
def recvOne (round : Round) (temp : ℕ → Bool) (c : Carrier) (i : ℕ) : Carrier :=
  if temp i = false then c
  else if i = c.sock.socket then
    match round.accepted with
    | some newfd => { c with sock := usocketAddConnections c.sock newfd, lastN := Function.update c.lastN i newfd }
    | none => { c with lastN := Function.update c.lastN i (-1) }
  else
    match round.recv i with
    | none => { c with lastN := Function.update c.lastN i (-1) }
    | some bs =>
      let c := { c with lastReq := Function.update c.lastReq i (received (c.lastReq i) bs) }
      if bs.1.length = 0 then
        { c with lastN := Function.update c.lastN i (-1), sock := usocketRemoveConnection c.sock i }
      else { c with lastN := Function.update c.lastN i bs.1.length }

/-- The descriptors that are listened to and readable. -/
def selected (us : Usocket) (ready : ℕ → Bool) (i : ℕ) : Bool := us.connSet i && ready i

/-- `usocket_recvall`; a descriptor accepted in the round is looked at in the next. -/
def usocketRecvall (c : Carrier) (round : Round) : Option Carrier :=
  round.ready.map fun ready =>
    (List.range (c.sock.connSetMax + 1)).foldl (recvOne round (selected c.sock ready)) c

/-! ### The carrier -/

/-- One turn of the loop of `rtf_carrier_update`. -/
def nextState (st : ClientState) (n : ℤ) : ClientState :=
  if st = .empty ∧ n = 0 then st
  else if st = .empty ∧ n > 0 then .connected
  else if st = .connected ∧ n ≥ 0 then st
  else if n < 0 then .disconnected
  else .error

/-- The loop over the clients; each turn looks at its own entry. -/
def updateStates (n : ℕ) (c : Carrier) : Carrier :=
  { c with
    client := fun i =>
      if i ≤ n ∧ i ≠ c.sock.socket then { c.client i with state := nextState (c.client i).state (c.lastN i) }
      else c.client i }

def rtfCarrierUpdate (c : Carrier) (round : Round) : Carrier :=
  let n := usocketGetMaxfd c.sock
  let c := { c with lastN := fun i => if i ≤ n then 0 else c.lastN i }
  match usocketRecvall c round with
  | none => c
  | some c => updateStates n c

def rtfCarrierGetConn (c : Carrier) : ℕ := usocketGetMaxfd c.sock

def rtfCarrierGetReq (c : Carrier) (cliId : ℕ) : Request := c.lastReq cliId

def rtfCarrierIsUpdated (c : Carrier) (cliId : ℕ) : Bool := decide (c.lastN cliId > 0)

def rtfCarrierReqClear (c : Carrier) (cliId : ℕ) : Carrier :=
  { c with lastN := Function.update c.lastN cliId 0 }

def rtfCarrierGetState (c : Carrier) (cliId : ℕ) : ClientState := (c.client cliId).state

def rtfCarrierSetState (c : Carrier) (cliId : ℕ) (s : ClientState) : Carrier :=
  { c with client := Function.update c.client cliId { c.client cliId with state := s } }

def rtfCarrierGetPid (c : Carrier) (cliId : ℕ) : Pid := (c.client cliId).pid

def rtfCarrierSetPid (c : Carrier) (cliId : ℕ) (pid : Pid) : Carrier :=
  { c with client := Function.update c.client cliId { c.client cliId with pid := pid } }

def rtfCarrierClose (c : Carrier) (cliId : ℕ) : Carrier :=
  { c with sock := usocketRemoveConnection c.sock cliId }

/-! ### A round, descriptor by descriptor -/

/-- The byte count a `recv` leaves. -/
def Recv.count {size : ℕ} : Recv size → ℤ
  | none => -1
  | some bs => if bs.1.length = 0 then -1 else bs.1.length

/-- The buffer a `recv` leaves. -/
def Recv.buffer {size : ℕ} (r : Recv size) (b : Buf size) : Buf size :=
  match r with
  | none => b
  | some bs => received b bs

/-- The other side has closed. -/
def Recv.closed {size : ℕ} (r : Recv size) : Prop := ∃ bs, r = some bs ∧ bs.1.length = 0

instance {size : ℕ} (r : Recv size) : Decidable r.closed :=
  match r with
  | none => isFalse (by rintro ⟨_, h, -⟩; cases h)
  | some bs =>
    if h : bs.1.length = 0 then isTrue ⟨bs, rfl, h⟩
    else isFalse (by rintro ⟨_, h', h0⟩; cases h'; exact h h0)

section Rounds

variable {round : Round} {temp : ℕ → Bool} {c : Carrier}

/-- What a round up to descriptor `k` has done to descriptor `d`. -/
structure Recvd (round : Round) (temp : ℕ → Bool) (c : Carrier) (k : ℕ) (c' : Carrier) : Prop where
  client : c'.client = c.client
  socket : c'.sock.socket = c.sock.socket
  highest : c.sock.connSetMax ≤ c'.sock.connSetMax ∧ ∀ fd, round.accepted = some fd → c.sock.socket < k →
    temp c.sock.socket → fd ≤ c'.sock.connSetMax
  lastN : ∀ d, d ≠ c.sock.socket →
    c'.lastN d = if d < k ∧ temp d then (round.recv d).count else c.lastN d
  lastReq : ∀ d, d ≠ c.sock.socket →
    c'.lastReq d = if d < k ∧ temp d then (round.recv d).buffer (c.lastReq d) else c.lastReq d
  connSet : ∀ d, d ≠ c.sock.socket →
    c'.sock.connSet d = if d < k ∧ temp d ∧ (round.recv d).closed then false
      else if c.sock.socket < k ∧ temp c.sock.socket ∧ round.accepted = some d then true
      else c.sock.connSet d

/-- A descriptor that is accepted is new. -/
def Fresh (round : Round) (us : Usocket) : Prop :=
  ∀ fd ∈ round.accepted, us.connSet fd = false ∧ fd ≠ us.socket

theorem recvd_zero : Recvd round temp c 0 c := by
  refine ⟨rfl, rfl, ⟨le_rfl, ?_⟩, ?_, ?_, ?_⟩ <;> simp

/-- One more descriptor: what it is concerned with changes, the rest stays. -/
theorem Recvd.next {c' : Carrier} {k : ℕ} (h : Recvd round temp c k c')
    (hfresh : ∀ fd, round.accepted = some fd → temp fd = false) :
    Recvd round temp c (k + 1) (recvOne round temp c' k) := by
  obtain ⟨hcl, hso, ⟨hmax, hacc⟩, hn, hreq, hset⟩ := h
  have hlt : ∀ d, d < k + 1 ↔ d < k ∨ d = k := fun d => by omega
  unfold recvOne
  by_cases ht : temp k = false
  · rw [if_pos ht]
    refine ⟨hcl, hso, ⟨hmax, ?_⟩, ?_, ?_, ?_⟩
    · intro fd hfd hs hts
      exact hacc fd hfd (by rcases (hlt _).mp hs with hs | rfl; exacts [hs, absurd hts (by simp [ht])]) hts
    all_goals
      intro d hd
      simp only [hn d hd, hreq d hd, hset d hd, hlt]
      grind
  · rw [if_neg ht, hso]
    by_cases hk : k = c.sock.socket
    · rw [if_pos hk]
      split
      · rename_i newfd hnew
        have hf := hfresh newfd hnew
        refine ⟨hcl, hso, ⟨?_, ?_⟩, ?_, ?_, ?_⟩
        · simp only [usocketAddConnections]
          split <;> omega
        · intro fd hfd _ _
          rw [hnew] at hfd
          cases hfd
          simp only [usocketAddConnections]
          split <;> omega
        all_goals
          intro d hd
          have hdk : d ≠ k := fun h => hd (h.trans hk)
          simp only [usocketAddConnections, Function.update_apply, hn d hd, hreq d hd, hset d hd, hlt]
          grind
      · rename_i hnew
        refine ⟨hcl, hso, ⟨hmax, fun fd hfd => by rw [hnew] at hfd; cases hfd⟩, ?_, ?_, ?_⟩
        all_goals
          intro d hd
          have hdk : d ≠ k := fun h => hd (h.trans hk)
          simp only [Function.update_apply, hn d hd, hreq d hd, hset d hd, hlt]
          grind
    · rw [if_neg hk]
      have hacc' : ∀ fd, round.accepted = some fd → c.sock.socket < k + 1 → temp c.sock.socket →
          fd ≤ c'.sock.connSetMax := fun fd hfd hs hts => hacc fd hfd (by omega) hts
      split
      · rename_i hrec
        refine ⟨hcl, hso, ⟨hmax, hacc'⟩, ?_, ?_, ?_⟩
        all_goals
          intro d hd
          simp only [Function.update_apply, hn d hd, hreq d hd, hset d hd, hlt]
          grind [Recv.count, Recv.buffer, Recv.closed]
      · rename_i bs hrec
        dsimp only
        split
        · rename_i hzero
          refine ⟨hcl, hso, ⟨hmax, hacc'⟩, ?_, ?_, ?_⟩
          all_goals
            intro d hd
            simp only [usocketRemoveConnection, Function.update_apply, hn d hd, hreq d hd, hset d hd, hlt]
            grind [Recv.count, Recv.buffer, Recv.closed]
        · rename_i hpos
          refine ⟨hcl, hso, ⟨hmax, hacc'⟩, ?_, ?_, ?_⟩
          all_goals
            intro d hd
            simp only [Function.update_apply, hn d hd, hreq d hd, hset d hd, hlt]
            grind [Recv.count, Recv.buffer, Recv.closed]

theorem recvd_fold (hfresh : ∀ fd, round.accepted = some fd → temp fd = false) :
    ∀ k, Recvd round temp c k ((List.range k).foldl (recvOne round temp) c)
  | 0 => recvd_zero
  | k + 1 => by
    rw [List.range_succ, List.foldl_append]
    exact (recvd_fold hfresh k).next hfresh

/-- The descriptors the round reads from. -/
def readable (round : Round) (us : Usocket) (i : ℕ) : Bool :=
  match round.ready with
  | none => false
  | some ready => selected us ready i

/-- What a round has done to the carrier, descriptor by descriptor. -/
structure Updated (round : Round) (c c' : Carrier) : Prop where
  socket : c'.sock.socket = c.sock.socket
  highest : c.sock.connSetMax ≤ c'.sock.connSetMax
  ranged : ∀ d, d ≠ c.sock.socket → c'.sock.connSet d → d ≤ c'.sock.connSetMax
  pid : ∀ d, (c'.client d).pid = (c.client d).pid
  main : c'.client c.sock.socket = c.client c.sock.socket
  lastN : ∀ d, d ≠ c.sock.socket → c'.lastN d = if readable round c.sock d then (round.recv d).count
    else if d ≤ usocketGetMaxfd c.sock then 0 else c.lastN d
  lastReq : ∀ d, d ≠ c.sock.socket →
    c'.lastReq d = if readable round c.sock d then (round.recv d).buffer (c.lastReq d) else c.lastReq d
  connSet : ∀ d, d ≠ c.sock.socket → c'.sock.connSet d =
    if readable round c.sock d ∧ (round.recv d).closed then false
    else if readable round c.sock c.sock.socket ∧ round.accepted = some d then true
    else c.sock.connSet d
  state : ∀ d, d ≠ c.sock.socket → (c'.client d).state =
    if round.ready.isSome ∧ d ≤ usocketGetMaxfd c.sock then nextState (c.client d).state (c'.lastN d)
    else (c.client d).state

/-- **A round, descriptor by descriptor**, where the set holds no descriptor above its maximum. -/
theorem update_fields (hr : ∀ d, c.sock.connSet d → d ≤ c.sock.connSetMax) (hfresh : Fresh round c.sock) :
    Updated round c (rtfCarrierUpdate c round) := by
  unfold rtfCarrierUpdate
  rcases hready : round.ready with _ | ready
  · have hnone : ∀ d, readable round c.sock d = false := by
      intro d
      simp [readable, hready]
    simp only [usocketRecvall, hready, Option.map_none]
    refine ⟨rfl, le_rfl, fun d _ => hr d, fun _ => rfl, rfl, ?_, ?_, ?_, ?_⟩ <;>
      · intro d _
        simp [hnone, hready]
  · have hsel : ∀ d, readable round c.sock d = selected c.sock ready d := by
      intro d
      simp [readable, hready]
    have hle : ∀ d, selected c.sock ready d → d < c.sock.connSetMax + 1 := by
      intro d hd
      have hset : c.sock.connSet d = true := by
        unfold selected at hd
        exact (Bool.and_eq_true_iff.mp hd).1
      have := hr d hset
      omega
    have hboth : ∀ d, (d < c.sock.connSetMax + 1 ∧ selected c.sock ready d = true) ↔ selected c.sock ready d = true :=
      fun d => ⟨fun h => h.2, fun h => ⟨hle d h, h⟩⟩
    have hnew : ∀ fd, round.accepted = some fd → selected c.sock ready fd = false := by
      intro fd hfd
      simp [selected, (hfresh fd hfd).1]
    simp only [usocketRecvall, hready, Option.map_some]
    -- the byte counts are set to 0 before the loop
    set c0 : Carrier := { c with lastN := fun i => if i ≤ usocketGetMaxfd c.sock then 0 else c.lastN i } with hc0
    obtain ⟨hcl, hso, ⟨hmax, hacc⟩, hn, hreq, hset⟩ :=
      @recvd_fold round (selected c.sock ready) c0 hnew (c.sock.connSetMax + 1)
    set c1 := (List.range (c.sock.connSetMax + 1)).foldl (recvOne round (selected c.sock ready)) c0 with hc1
    have hs0 : c0.sock = c.sock := rfl
    rw [hs0] at hso hmax hacc
    refine ⟨hso, hmax, ?_, ?_, ?_, ?_, ?_, ?_, ?_⟩
    · intro d hd hcs
      change c1.sock.connSet d = true at hcs
      show d ≤ c1.sock.connSetMax
      rw [hset d hd] at hcs
      split at hcs
      · cases hcs
      · split at hcs
        · rename_i h
          exact hacc d h.2.2 h.1 h.2.1
        · exact (hr d hcs).trans hmax
    · intro d
      simp only [updateStates, hcl]
      split <;> rfl
    · simp only [updateStates, hso, hcl]
      rw [if_neg fun h => h.2 rfl]
    · intro d hd
      show c1.lastN d = _
      rw [hn d hd, hsel]
      simp only [hboth]
      rfl
    · intro d hd
      show c1.lastReq d = _
      rw [hreq d hd, hsel]
      simp only [hboth]
      rfl
    · intro d hd
      show c1.sock.connSet d = _
      rw [hset d hd, hsel, hsel, hs0]
      have hclosed : (d < c.sock.connSetMax + 1 ∧ selected c.sock ready d = true ∧ (round.recv d).closed) ↔
          (selected c.sock ready d = true ∧ (round.recv d).closed) := by
        rw [← and_assoc, hboth]
      have hmain : (c.sock.socket < c.sock.connSetMax + 1 ∧ selected c.sock ready c.sock.socket = true ∧
          round.accepted = some d) ↔ (selected c.sock ready c.sock.socket = true ∧ round.accepted = some d) := by
        rw [← and_assoc, hboth]
      simp only [hclosed, hmain]
    · intro d hd
      have hsome : round.ready.isSome = true := by rw [hready]; rfl
      simp only [updateStates, hso, hcl]
      by_cases hdn : d ≤ usocketGetMaxfd c.sock
      · rw [if_pos ⟨hdn, hd⟩, if_pos ⟨hsome, hdn⟩]
      · rw [if_neg fun h => hdn h.1, if_neg fun h => hdn h.2]

end Rounds

end Retif
