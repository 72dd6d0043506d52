/-
# Whether the daemon said so

A call of the library that asks for an operation returns success when the type
in the reply buffer is not the refusal of its request, whatever was received:
nothing, when the daemon has closed the connection, or part of a reply. The
buffer then still holds, in whole or in part, the reply of an earlier call.

A call is honest exactly when the socket fails, or gives the type of a
refusal, or gives a whole reply of success (`Answers`): this is about the bytes
of the call alone, so a sequence of calls is honest exactly when each of them
is given such bytes.

Key definitions: `Honest`, `Answers`, `Truthful`.
Key theorems: `honest_iff`, `truthful_iff`, `not_truthful`.
-/
import Retif.Library

namespace Retif

open Memory

/-- The type of the reply that `bs` is, or is the beginning of. -/
def typeIn (bs : List UInt8) : ℕ := leNat (load bs 0 4)

/-- Success of call `c` was said by a whole reply received in it, and its
outcome is not that of the reply before. -/
structure Honest (l : Lib) (c : Call) (x : Exchange) : Prop where
  said : ∀ bad good, c.replies = some (bad, good) → (l.call c x).1 = .res .ok →
    ∃ bs, x.recv = some bs ∧ bs.1.length = REPLY_SIZE ∧ ∃ g ∈ good, typeIn bs.1 = g.code
  own : ∀ bad good, c.replies = some (bad, good) → ∀ rep : Buf REPLY_SIZE,
    (Lib.call { l with rep := rep } c x).1 = (l.call c x).1

/-- The socket fails, or gives the type of a refusal, or a whole reply of success. -/
def Answers (c : Call) (x : Exchange) : Prop :=
  ∀ bad good, c.replies = some (bad, good) → x.sent = -1 ∨ x.recv = none ∨
    ∃ bs, x.recv = some bs ∧ ((4 ≤ bs.1.length ∧ typeIn bs.1 = bad.code) ∨
      (bs.1.length = REPLY_SIZE ∧ ∃ g ∈ good, typeIn bs.1 = g.code))

/-! ### The type in the buffer -/

section Buffer

variable {rep : Buf REPLY_SIZE} {bs : {bs : List UInt8 // bs.length ≤ REPLY_SIZE}}

/-- Four bytes are enough for the type. -/
theorem repType_received (h : 4 ≤ bs.1.length) : repTypeOf (received rep bs) = typeIn bs.1 := by
  have hin := @load_store_inside rep.1 bs.1 0 4 0 (by omega) (by omega)
  exact congrArg leNat hin

/-- Fewer are not: with other bytes behind them it is no type at all. -/
theorem repType_short (h : bs.1.length < 4) (t : RepType) :
    repTypeOf (received (⟨List.replicate REPLY_SIZE 255, by simp⟩ : Buf REPLY_SIZE) bs) ≠ t.code := by
  have hlt := t.code_lt
  have hlast : (store (List.replicate REPLY_SIZE 255) 0 bs.1)[3]? = some 255 := by
    rw [store_getElem? (by simp), if_neg (by omega), if_neg (by omega)]
    decide
  have hlen : (load (store (List.replicate REPLY_SIZE 255) 0 bs.1) 0 4).length = 4 := by
    apply load_length
    rw [store_length (by simpa using bs.2)]
    decide
  obtain ⟨b0, b1, b2, b3, hfour⟩ := List.length_eq_four.mp hlen
  have hb3 : b3 = 255 := by
    have hthree := load_getElem? (store (List.replicate REPLY_SIZE 255) 0 bs.1) 0 4 3
    rw [hfour, if_pos (by omega), hlast] at hthree
    simpa using hthree
  have hval : repTypeOf (received (⟨List.replicate REPLY_SIZE 255, by simp⟩ : Buf REPLY_SIZE) bs) =
      b0.toNat + 256 * (b1.toNat + 256 * (b2.toNat + 256 * 255)) := by
    show leNat (load (store (List.replicate REPLY_SIZE 255) 0 bs.1) 0 4) = _
    rw [hfour, hb3]
    simp [leNat]
  rw [hval]
  omega

end Buffer

/-! ### One call -/

/-- Calls that ask for no operation promise nothing here. -/
theorem honest_of_none {l : Lib} {c : Call} {x : Exchange} (h : c.replies = none) : Honest l c x := by
  refine ⟨?_, ?_⟩
  · intro bad good hr
    simp [h] at hr
  · intro bad good hr
    simp [h] at hr

/-- **One call**: it is honest exactly when the socket answers it. -/
theorem honest_iff (l : Lib) (c : Call) (x : Exchange) : Honest l c x ↔ Answers c x := by
  rcases hr : c.replies with _ | ⟨bad, good⟩
  · refine ⟨?_, fun _ => honest_of_none hr⟩
    intro _ bad good hsome
    simp [hr] at hsome
  have hans : ∀ rep, (Lib.call { l with rep := rep } c x).1 = .res (decided bad x rep) := fun rep => call_decided hr
  have hnow : (l.call c x).1 = .res (decided bad x l.rep) := call_decided hr
  constructor
  · rintro ⟨hsaid, hown⟩ bad' good' hr'
    obtain ⟨rfl, rfl⟩ : bad = bad' ∧ good = good' := by simpa [hr] using hr'
    by_cases hs : x.sent = -1
    · exact .inl hs
    rcases hrecv : x.recv with _ | bs
    · exact .inr (.inl rfl)
    refine .inr (.inr ⟨bs, rfl, ?_⟩)
    have hdec : ∀ rep, decided bad x rep = if repTypeOf (received rep bs) = bad.code then .fail else .ok := by
      intro rep
      simp [decided, hs, hrecv]
    by_cases hbad : repTypeOf (received l.rep bs) = bad.code
    · -- it failed: with four bytes for the type, or it would succeed on another buffer
      left
      by_cases hlen : 4 ≤ bs.1.length
      · exact ⟨hlen, by rw [← repType_received hlen]; exact hbad⟩
      · have hsame := hown bad good hr ⟨List.replicate REPLY_SIZE 255, by simp⟩
        rw [hans, hnow, hdec, hdec, if_neg (repType_short (by omega) bad), if_pos hbad] at hsame
        cases hsame
    · -- it succeeded: a whole reply said so
      right
      have hok : (l.call c x).1 = .res .ok := by rw [hnow, hdec, if_neg hbad]
      obtain ⟨bs', hrecv', hlen, hgood⟩ := hsaid bad good hr hok
      rw [hrecv] at hrecv'
      cases hrecv'
      exact ⟨hlen, hgood⟩
  · intro hA
    have hconst : ∀ rep, decided bad x rep = decided bad x l.rep := by
      intro rep
      rcases hA bad good hr with hs | hn | ⟨bs, hrecv, ⟨hlen, -⟩ | ⟨hlen, -⟩⟩
      · simp [decided, hs]
      · simp [decided, hn]
      · simp only [decided, hrecv, repType_received hlen]
      · have hfour : 4 ≤ bs.1.length := by
          rw [hlen]
          decide
        simp only [decided, hrecv, repType_received hfour]
    refine ⟨?_, ?_⟩
    · intro bad' good' hr' hok
      obtain ⟨rfl, rfl⟩ : bad = bad' ∧ good = good' := by simpa [hr] using hr'
      rw [hnow] at hok
      have hdec : decided bad x l.rep = .ok := by simpa using hok
      rcases hA bad good hr with hs | hn | ⟨bs, hrecv, ⟨hlen, hty⟩ | hwhole⟩
      · simp [decided, hs] at hdec
      · simp [decided, hn] at hdec
      · simp only [decided, hrecv, repType_received hlen, hty, if_true] at hdec
        split at hdec <;> cases hdec
      · exact ⟨bs, hrecv, hwhole⟩
    · intro bad' good' hr' rep
      obtain ⟨rfl, rfl⟩ : bad = bad' ∧ good = good' := by simpa [hr] using hr'
      rw [hans, hnow, hconst]

/-! ### A sequence of calls -/

/-- Every call of the sequence is honest, each in the state the ones before it leave. -/
def Truthful : Lib → List (Call × Exchange) → Prop
  | _, [] => True
  | l, (c, x) :: calls => Honest l c x ∧ Truthful (l.call c x).2 calls

/-- **A sequence of calls** is honest exactly when the socket answers each of them. -/
theorem truthful_iff (l : Lib) (calls : List (Call × Exchange)) :
    Truthful l calls ↔ ∀ p ∈ calls, Answers p.1 p.2 := by
  induction calls generalizing l with
  | nil => simp [Truthful]
  | cons p calls ih =>
    obtain ⟨c, x⟩ := p
    simp [Truthful, honest_iff, ih]

namespace RepliesExample

/-- The reply to a create that is accepted as task 1. -/
def accepted : Exchange :=
  ⟨80, some ⟨((Reply.mk .taskCreateOk (.response 1)).bytes (Buf.zero REPLY_SIZE)).1, by simp [(Reply.bytes _ _).2]⟩, 0⟩

/-- The daemon has closed the connection: `recv` gives no bytes. -/
def closed : Exchange := ⟨80, some ⟨[], by simp⟩, 0⟩

def start : Lib := ⟨Buf.zero REQUEST_SIZE, Buf.zero REPLY_SIZE, fun _ => ⟨0, Params.zero⟩⟩

end RepliesExample

open RepliesExample

/-- The attach is told nothing, and returns success by the reply to the create. -/
theorem not_truthful : ¬ ∀ (l : Lib) (calls : List (Call × Exchange)), Truthful l calls := by
  intro h
  obtain ⟨-, hattach, -⟩ := h start [(.create 0 Params.zero, accepted), (.attach 0 7, closed)]
  have hok : ((start.call (.create 0 Params.zero) accepted).2.call (.attach 0 7) closed).1 = .res .ok := by
    decide +kernel
  obtain ⟨bs, hbs, hlen, -⟩ := hattach.said .taskAttachErr [.taskAttachOk] rfl hok
  cases hbs
  exact absurd hlen (by decide)

end Retif
