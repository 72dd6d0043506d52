/-
# The loop over a range of cores

`parse_conf_plugins_item_cores` fills a range by pushing the successor of the
last core until the last core is the upper end, and does not look at what
`vector_push_back` returns. The upper end is a `long`, the cores are `int`s: an
end above `INT_MAX` is never met. A push that fails leaves the last core as it
was, and where none is left to succeed the loop turns for ever; where the core
the range starts from was not stored, there is no last core to look at.

`ok` tells which calls of `vector_push_back` succeed, `fuel` bounds the turns of
the loop. With every push succeeding the parser is that of `Parse`
(`scalarCores_push`).

Key definitions: `Filling`, `extendRange`, `scalarCores`, `Turns`, `Fillable`, `Ends`.
Key theorems: `extendRange_iff`, `scalarCores_iff`, `scalarCores_push`, `ends_iff`, `not_ends`.
-/
import Retif.CoreLists

namespace Retif

open CString

/-! ### The parser, with pushes that fail -/

/-- The cores stored so far, and the calls of `vector_push_back` that were made. -/
structure Filling where
  cores : List ℤ
  calls : ℕ

def vectorPushBack (ok : ℕ → Bool) (v : Filling) (value : ℤ) : Filling where
  cores := if ok v.calls then v.cores ++ [narrow value] else v.cores
  calls := v.calls + 1

/-- The loop over a range; the last core of no cores is out of range. -/
def extendRange (ok : ℕ → Bool) (value : ℤ) : ℕ → Filling → Option Filling
  | 0, _ => none
  | fuel + 1, v => do
    let back ← v.cores.getLast?
    if back < value then extendRange ok value fuel (vectorPushBack ok v (back + 1)) else some v

/-- What a value adds to the cores. -/
def addCores (ok : ℕ → Bool) (fuel : ℕ) (inRange : Bool) (v : Filling) (value : ℤ) : Option Filling :=
  if inRange then extendRange ok value fuel v else some (vectorPushBack ok v value)

/-- The loop over the tokens of a scalar. -/
def scalarCores (ok : ℕ → Bool) (fuel : ℕ) :
    List (List UInt8 × Option UInt8) → Bool → Bool → Filling → Option (Bool × Filling)
  | [], _, errno, v => some (errno, v)
  | (token, d) :: rest, inRange, errno, v =>
    match stringToLong token errno with
    | (.error _, errno) => some (errno, v)
    | (.ok value, errno) =>
      if v.cores.getLast?.any (value ≤ ·) then some (errno, v)
      else do
        let v ← addCores ok fuel inRange v value
        if d = some 44 then scalarCores ok fuel rest false errno v
        else if d = some 45 then if inRange then some (errno, v) else scalarCores ok fuel rest true errno v
        else scalarCores ok fuel rest inRange errno v

/-- **The scalar is parsed to an end.** -/
def Ends (ok : ℕ → Bool) (s : List UInt8) (errno : Bool) : Prop :=
  ∃ fuel r, scalarCores ok fuel (tokens ",-".toUTF8.toList s) false errno ⟨[], 0⟩ = some r

/-! ### The turns a range takes -/

/-- Of the `n` calls from number `calls` on, `k` succeed, the last one among them. -/
inductive Turns (ok : ℕ → Bool) : ℕ → ℕ → ℕ → Prop where
  | done {calls : ℕ} : Turns ok calls 0 0
  | pushed {calls k n : ℕ} : ok calls = true → Turns ok (calls + 1) k n → Turns ok calls (k + 1) (n + 1)
  | failed {calls k n : ℕ} : ok calls = false → Turns ok (calls + 1) (k + 1) n → Turns ok calls (k + 1) (n + 1)

/-- Each range the tokens come to starts from a core that was stored, ends at an
`int`, and finds as many calls that succeed as it has cores to push. `last` is
the last core stored, `calls` the calls made so far. -/
def Fillable (ok : ℕ → Bool) : List (List UInt8 × Option UInt8) → Bool → Bool → Option ℤ → ℕ → Prop
  | [], _, _, _, _ => True
  | (token, d) :: rest, inRange, errno, last, calls =>
    match stringToLong token errno with
    | (.error _, _) => True
    | (.ok value, errno) =>
      if last.any (value ≤ ·) then True
      else if inRange then
        value < 2 ^ 31 ∧ ∃ back ∈ last, ∃ n, Turns ok calls (value - back).toNat n ∧
          (d = some 45 ∨ Fillable ok rest (d ≠ some 44) errno (some value) (calls + n))
      else Fillable ok rest (d = some 45) errno (if ok calls then some (narrow value) else last) (calls + 1)

section Loop

variable {ok : ℕ → Bool} {value : ℤ} {fuel calls n k : ℕ}

theorem turns_zero : Turns ok calls 0 n ↔ n = 0 := by
  constructor
  · intro h
    cases h
    rfl
  · rintro rfl
    exact .done

theorem turns_succ : Turns ok calls (k + 1) n ↔
    ∃ m, n = m + 1 ∧ Turns ok (calls + 1) (if ok calls then k else k + 1) m := by
  constructor
  · intro h
    cases h with
    | pushed hok h => exact ⟨_, rfl, by rwa [if_pos hok]⟩
    | failed hok h => exact ⟨_, rfl, by rwa [if_neg (by simp [hok])]⟩
  · rintro ⟨m, rfl, h⟩
    by_cases hok : ok calls = true
    · rw [if_pos hok] at h
      exact .pushed hok h
    · rw [if_neg hok] at h
      exact .failed (by simpa using hok) h

/-- Where every call succeeds, a turn is a core. -/
theorem turns_push : Turns (fun _ => true) calls k n ↔ n = k := by
  induction k generalizing calls n with
  | zero => exact turns_zero
  | succ k ih =>
    rw [turns_succ]
    simp [ih]

theorem narrow_bounds (value : ℤ) : -2 ^ 31 ≤ narrow value ∧ narrow value < 2 ^ 31 := by
  unfold narrow
  have hlo := @Int.le_bmod value (2 ^ 32) (by decide)
  have hhi := @Int.bmod_lt value (2 ^ 32) (by decide)
  norm_num at hlo hhi ⊢
  exact ⟨hlo, hhi⟩

/-- The last core is an `int`. -/
def IntSized (cores : List ℤ) : Prop := ∀ back ∈ cores.getLast?, -2 ^ 31 ≤ back ∧ back < 2 ^ 31

theorem intSized_push {v : Filling} (h : IntSized v.cores) : IntSized (vectorPushBack ok v value).cores := by
  unfold vectorPushBack
  dsimp only
  split
  · intro back hback
    simp only [List.getLast?_append, List.getLast?_singleton, Option.some_or, Option.mem_some_iff] at hback
    rw [← hback]
    exact narrow_bounds value
  · exact h

/-- **The loop** ends exactly at an `int`, after as many calls as it takes to
push what is missing. The induction is on the bound of its turns: a turn either
brings the last core one nearer or leaves all as it is. -/
theorem extendRange_iff {cores : List ℤ} {back : ℤ} {r : Filling} (hback : cores.getLast? = some back)
    (hint : IntSized cores) (hle : back ≤ value) :
    extendRange ok value fuel ⟨cores, calls⟩ = some r ↔
      value < 2 ^ 31 ∧ ∃ n < fuel, Turns ok calls (value - back).toNat n ∧
        r = ⟨cores ++ coresAfter (value - back).toNat back, calls + n⟩ := by
  induction fuel generalizing cores back calls with
  | zero => simp [extendRange]
  | succ fuel ih =>
    obtain ⟨hlo, hhi⟩ := hint back hback
    have hcalls : ∀ n, calls + 1 + n = calls + (n + 1) := fun n => by omega
    simp only [extendRange, hback, Option.bind_eq_bind, Option.bind_some]
    rcases hle.eq_or_lt with rfl | hlt
    · -- the last core is the upper end
      simp only [lt_irrefl, if_false, sub_self, Int.toNat_zero, turns_zero, coresAfter, List.append_nil,
        Option.some.injEq]
      constructor
      · rintro rfl
        exact ⟨hhi, 0, Nat.succ_pos _, rfl, rfl⟩
      · rintro ⟨-, n, -, rfl, rfl⟩
        rfl
    · have hmissing : (value - back).toNat = (value - (back + 1)).toNat + 1 := by omega
      rw [if_pos hlt, hmissing]
      simp only [turns_succ, vectorPushBack]
      by_cases hok : ok calls = true
      · simp only [hok, if_true]
        have hlast : (cores ++ [narrow (back + 1)]).getLast? = some (narrow (back + 1)) := by simp
        have hbounds := narrow_bounds (back + 1)
        have hnarrow : back + 1 < 2 ^ 31 → narrow (back + 1) = back + 1 := by
          intro hfits
          unfold narrow
          rw [Int.bmod_eq_of_le] <;> omega
        have hnext : narrow (back + 1) ≤ value := by
          by_cases hfits : back + 1 < 2 ^ 31
          · rw [hnarrow hfits]
            omega
          · omega
        have hint' : IntSized (cores ++ [narrow (back + 1)]) := by
          intro b hb
          rw [hlast, Option.mem_some_iff] at hb
          rw [← hb]
          exact hbounds
        rw [ih hlast hint' hnext]
        constructor
        · rintro ⟨hvalue, n, hn, hturns, rfl⟩
          rw [hnarrow (by omega)] at hturns ⊢
          refine ⟨hvalue, n + 1, by omega, ⟨n, rfl, hturns⟩, ?_⟩
          simp [coresAfter, hcalls]
        · rintro ⟨hvalue, -, hn, ⟨n, rfl, hturns⟩, rfl⟩
          rw [hnarrow (by omega)]
          refine ⟨hvalue, n, by omega, hturns, ?_⟩
          simp [coresAfter, hcalls]
      · simp only [hok, if_false, Bool.false_eq_true]
        rw [ih hback hint hle, hmissing]
        constructor
        · rintro ⟨hvalue, n, hn, hturns, rfl⟩
          refine ⟨hvalue, n + 1, by omega, ⟨n, rfl, hturns⟩, ?_⟩
          rw [hcalls]
        · rintro ⟨hvalue, -, hn, ⟨n, rfl, hturns⟩, rfl⟩
          refine ⟨hvalue, n, by omega, hturns, ?_⟩
          rw [hcalls]

theorem extendRange_mono {fuel' : ℕ} (hle : fuel ≤ fuel') {v r : Filling} (h : extendRange ok value fuel v = some r) :
    extendRange ok value fuel' v = some r := by
  induction fuel generalizing fuel' v with
  | zero => cases h
  | succ fuel ih =>
    obtain ⟨fuel', rfl⟩ := Nat.exists_eq_add_of_lt (Nat.lt_of_succ_le hle)
    obtain ⟨back, hback, h⟩ := Option.bind_eq_some_iff.mp h
    simp only [extendRange, hback, Option.bind_eq_bind, Option.bind_some]
    split at h
    · rename_i hlt
      rw [if_pos hlt]
      exact ih (by omega) h
    · rename_i hge
      rwa [if_neg hge]

end Loop

/-! ### The tokens -/

section Tokens

variable {ok : ℕ → Bool} {fuel : ℕ} {ts : List (List UInt8 × Option UInt8)} {inRange errno : Bool} {v : Filling}

theorem addCores_mono {fuel' : ℕ} (hle : fuel ≤ fuel') {value : ℤ} {r : Filling}
    (h : addCores ok fuel inRange v value = some r) : addCores ok fuel' inRange v value = some r := by
  unfold addCores at h ⊢
  split
  · rename_i hin
    rw [if_pos hin] at h
    exact extendRange_mono hle h
  · rename_i hout
    rwa [if_neg hout] at h

/-- **A turn** of the loop over the tokens. -/
theorem scalarCores_cons {token : List UInt8} {d : Option UInt8} {rest : List (List UInt8 × Option UInt8)} :
    scalarCores ok fuel ((token, d) :: rest) inRange errno v = match stringToLong token errno with
      | (.error _, errno) => some (errno, v)
      | (.ok value, errno) =>
        if v.cores.getLast?.any (value ≤ ·) then some (errno, v)
        else (addCores ok fuel inRange v value).bind fun v =>
          (opens d inRange).elim (some (errno, v)) fun inRange => scalarCores ok fuel rest inRange errno v := by
  unfold opens
  rw [scalarCores]
  rcases stringToLong token errno with ⟨ret | value, e⟩
  · rfl
  · dsimp only
    congr 1
    apply bind_congr
    intro v
    split_ifs <;> rfl

theorem scalarCores_mono {fuel' : ℕ} (hle : fuel ≤ fuel') {r : Bool × Filling}
    (h : scalarCores ok fuel ts inRange errno v = some r) : scalarCores ok fuel' ts inRange errno v = some r := by
  induction ts generalizing inRange errno v with
  | nil => exact h
  | cons head rest ih =>
    obtain ⟨token, d⟩ := head
    rw [scalarCores_cons] at h ⊢
    rcases hconv : stringToLong token errno with ⟨ret | value, e⟩ <;> rw [hconv] at h <;> dsimp only at h ⊢
    · exact h
    · split at h
      · rename_i hlast
        rwa [if_pos hlast]
      · rename_i hlast
        rw [if_neg hlast]
        obtain ⟨next, hnext, h⟩ := Option.bind_eq_some_iff.mp h
        apply Option.bind_eq_some_iff.mpr
        refine ⟨next, addCores_mono hle hnext, ?_⟩
        rcases hopens : opens d inRange with _ | open' <;> rw [hopens] at h
        · exact h
        · exact ih h

/-- What comes after a range is done from the cores it leaves, and the calls it took. -/
theorem rangeThen_iff {β : Type} {k : ℕ → Filling → Option β} {cores : List ℤ} {calls : ℕ} {back value : ℤ}
    (hk : ∀ {fuel fuel' : ℕ} {v : Filling} {r : β}, fuel ≤ fuel' → k fuel v = some r → k fuel' v = some r)
    (hback : cores.getLast? = some back) (hint : IntSized cores) (hle : back ≤ value) :
    (∃ fuel r, (extendRange ok value fuel ⟨cores, calls⟩).bind (k fuel) = some r) ↔
      value < 2 ^ 31 ∧ ∃ n, Turns ok calls (value - back).toNat n ∧
        ∃ fuel r, k fuel ⟨cores ++ coresAfter (value - back).toNat back, calls + n⟩ = some r := by
  constructor
  · rintro ⟨fuel, r, h⟩
    obtain ⟨next, hnext, h⟩ := Option.bind_eq_some_iff.mp h
    obtain ⟨hvalue, n, -, hturns, rfl⟩ := (extendRange_iff hback hint hle).mp hnext
    exact ⟨hvalue, n, hturns, fuel, r, h⟩
  · rintro ⟨hvalue, n, hturns, fuel, r, h⟩
    have hloop : extendRange ok value (max (n + 1) fuel) ⟨cores, calls⟩ =
        some ⟨cores ++ coresAfter (value - back).toNat back, calls + n⟩ :=
      (extendRange_iff hback hint hle).mpr ⟨hvalue, n, by omega, hturns, rfl⟩
    refine ⟨max (n + 1) fuel, r, ?_⟩
    rw [hloop, Option.bind_some]
    exact hk (le_max_right _ _) h

theorem opens_single (d : Option UInt8) : opens d false = some (decide (d = some 45)) := by
  unfold opens
  split_ifs with hcomma hdash <;> simp_all

theorem opens_range {d : Option UInt8} (hd : d ≠ some 45) : opens d true = some (decide (d ≠ some 44)) := by
  unfold opens
  split_ifs <;> simp_all

/-- **The tokens** are parsed to an end exactly where the ranges they come to can
be filled. One token at a time: a single core leaves one call behind it, a
range as many as it takes. -/
theorem scalarCores_iff (hint : IntSized v.cores) :
    (∃ fuel r, scalarCores ok fuel ts inRange errno v = some r) ↔
      Fillable ok ts inRange errno v.cores.getLast? v.calls := by
  induction ts generalizing inRange errno v with
  | nil => simp [scalarCores, Fillable]
  | cons head rest ih =>
    obtain ⟨token, d⟩ := head
    simp only [scalarCores_cons]
    unfold Fillable
    rcases stringToLong token errno with ⟨ret | value, e⟩ <;> dsimp only
    · simp
    · by_cases hlast : v.cores.getLast?.any (value ≤ ·) = true
      · simp [hlast]
      · simp only [hlast, if_false, Bool.false_eq_true]
        cases inRange with
        | false =>
          have hnext : ∀ fuel, addCores ok fuel false v value = some (vectorPushBack ok v value) := fun _ => rfl
          have hlast' : (vectorPushBack ok v value).cores.getLast? =
              if ok v.calls then some (narrow value) else v.cores.getLast? := by
            unfold vectorPushBack
            dsimp only
            split <;> simp
          simp only [hnext, opens_single, Option.bind_some, Option.elim_some, if_false, Bool.false_eq_true]
          rw [ih (intSized_push hint), hlast']
          rfl
        | true =>
          obtain ⟨cores, calls⟩ := v
          dsimp only at hint hlast ⊢
          have hrange : ∀ fuel, addCores ok fuel true ⟨cores, calls⟩ value = extendRange ok value fuel ⟨cores, calls⟩ :=
            fun _ => rfl
          simp only [hrange, if_true]
          rcases hback : cores.getLast? with _ | back
          · -- there is no core to start from
            have hstuck : ∀ fuel, extendRange ok value fuel ⟨cores, calls⟩ = none := by
              intro fuel
              cases fuel <;> simp [extendRange, hback]
            simp [hstuck]
          · have hlt : back < value := by simpa [hback] using hlast
            have hafter := coresAfter_last hback hlt.le
            have hint' : value < 2 ^ 31 → IntSized (cores ++ coresAfter (value - back).toNat back) := by
              intro hvalue b hb
              rw [hafter, Option.mem_some_iff] at hb
              have hbounds := hint back hback
              omega
            simp only [Option.mem_some_iff, exists_eq_left']
            by_cases hd : d = some 45
            · subst hd
              have hdash : opens (some 45) true = none := rfl
              rw [rangeThen_iff ?_ hback hint hlt.le]
              · simp [hdash]
              · intro fuel fuel' v r _ h
                simpa [hdash] using h
            · rw [rangeThen_iff ?_ hback hint hlt.le]
              · refine and_congr_right fun hvalue => exists_congr fun n => and_congr_right fun _ => ?_
                simp only [opens_range hd, Option.elim_some, hd, false_or]
                rw [← hafter]
                exact @ih _ _ ⟨_, calls + n⟩ (hint' hvalue)
              · intro fuel fuel' v r hle h
                simp only [opens_range hd, Option.elim_some] at h ⊢
                exact scalarCores_mono hle h

end Tokens

/-! ### With every push succeeding -/

/-- What is pushed is what `Parse` adds; its loop over a range has no result
where this one does not end. -/
theorem addCores_push {inRange : Bool} {value : ℤ} {v : Filling} (hint : IntSized v.cores)
    (hlast : ¬ v.cores.getLast?.any (value ≤ ·) = true) {next : List ℤ} :
    (∃ fuel calls, addCores (fun _ => true) fuel inRange v value = some ⟨next, calls⟩) ↔
      pushCores inRange v.cores value = some next := by
  obtain ⟨cores, calls⟩ := v
  cases inRange with
  | false => simp [addCores, pushCores, vectorPushBack]
  | true =>
    simp only [addCores, pushCores, fillRange, if_true]
    rcases hback : cores.getLast? with _ | back
    · have hstuck : ∀ fuel, extendRange (fun _ => true) value fuel ⟨cores, calls⟩ = none := by
        intro fuel
        cases fuel <;> simp [extendRange, hback]
      simp [hstuck]
    · have hlt : back < value := by simpa [hback] using hlast
      simp only [extendRange_iff hback hint hlt.le, turns_push, Option.bind_eq_bind, Option.bind_some]
      constructor
      · rintro ⟨fuel, calls', hvalue, n, hn, rfl, h⟩
        rw [if_neg (by omega)]
        rw [(Filling.mk.inj h).1]
      · intro h
        split at h
        · cases h
        · rename_i hvalue
          refine ⟨_, calls + (value - back).toNat, by omega, _, Nat.lt_succ_self _, rfl, ?_⟩
          rw [Option.some.inj h]

theorem addCores_intSized {ok : ℕ → Bool} {fuel : ℕ} {inRange : Bool} {value : ℤ} {v next : Filling}
    (hint : IntSized v.cores) (hlast : ¬ v.cores.getLast?.any (value ≤ ·) = true)
    (h : addCores ok fuel inRange v value = some next) : IntSized next.cores := by
  unfold addCores at h
  split at h
  · obtain ⟨cores, calls⟩ := v
    rcases hback : cores.getLast? with _ | back
    · cases fuel <;> simp [extendRange, hback] at h
    · have hlt : back < value := by simpa [hback] using hlast
      obtain ⟨hvalue, n, -, -, rfl⟩ := (extendRange_iff hback hint hlt.le).mp h
      intro b hb
      rw [coresAfter_last hback hlt.le, Option.mem_some_iff] at hb
      have hbounds := hint back hback
      omega
  · rw [← Option.some.inj h]
    exact intSized_push hint

/-- **Where every push succeeds**, the parser returns what that of `Parse` does,
and comes to no end where that one has no result. -/
theorem scalarCores_push {ts : List (List UInt8 × Option UInt8)} {inRange errno e : Bool} {v : Filling} {out : List ℤ}
    (hint : IntSized v.cores) :
    (∃ fuel calls, scalarCores (fun _ => true) fuel ts inRange errno v = some (e, ⟨out, calls⟩)) ↔
      coresTokens ts inRange errno v.cores = some (e, out) := by
  have hsame : ∀ (errno : Bool) (v : Filling),
      (∃ calls, some (errno, v) = some (e, ⟨out, calls⟩)) ↔ some (errno, v.cores) = some (e, out) := by
    rintro errno ⟨cores, calls⟩
    simp
  induction ts generalizing inRange errno v with
  | nil => simpa [scalarCores, coresTokens] using hsame errno v
  | cons head rest ih =>
    obtain ⟨token, d⟩ := head
    simp only [scalarCores_cons, coresTokens_cons]
    rcases stringToLong token errno with ⟨ret | value, errno⟩ <;> dsimp only
    · simpa using hsame errno v
    · by_cases hlast : v.cores.getLast?.any (value ≤ ·) = true
      · simpa [hlast] using hsame errno v
      · simp only [hlast, if_false, Bool.false_eq_true]
        constructor
        · rintro ⟨fuel, calls, h⟩
          obtain ⟨⟨cores, calls'⟩, hnext, h⟩ := Option.bind_eq_some_iff.mp h
          have hint' := addCores_intSized hint hlast hnext
          rw [(addCores_push hint hlast).mp ⟨fuel, calls', hnext⟩, Option.bind_some]
          rcases hopens : opens d inRange with _ | open' <;> rw [hopens] at h
          · exact (hsame errno _).mp ⟨calls, h⟩
          · exact (ih hint').mp ⟨fuel, calls, h⟩
        · intro h
          obtain ⟨cores, hpush, h⟩ := Option.bind_eq_some_iff.mp h
          obtain ⟨fuel, calls, hnext⟩ := (addCores_push hint hlast).mpr hpush
          have hint' := addCores_intSized hint hlast hnext
          rcases hopens : opens d inRange with _ | open' <;> rw [hopens] at h
          · obtain ⟨calls', h⟩ := (hsame errno ⟨cores, calls⟩).mpr h
            exact ⟨fuel, calls', by rw [hnext]; exact h⟩
          · obtain ⟨fuel', calls', h⟩ := (@ih open' errno ⟨cores, calls⟩ hint').mpr h
            refine ⟨max fuel fuel', calls', ?_⟩
            rw [addCores_mono (le_max_left _ _) hnext, Option.bind_some]
            exact scalarCores_mono (le_max_right _ _) h

/-- **A scalar is parsed to an end exactly where its ranges can be filled.** -/
theorem ends_iff {ok : ℕ → Bool} {s : List UInt8} {errno : Bool} :
    Ends ok s errno ↔ Fillable ok (tokens ",-".toUTF8.toList s) false errno none 0 :=
  scalarCores_iff (by simp [IntSized])

/-- The upper end of `1-4294967295` is no `int`. -/
theorem not_ends : ¬ ∀ (ok : ℕ → Bool) (s : List UInt8) (errno : Bool), Ends ok s errno := by
  intro h
  have hfill := (scalarCores_iff (by simp [IntSized])).mp (h (fun _ => true) "1-4294967295".toUTF8.toList false)
  have htokens : tokens ",-".toUTF8.toList "1-4294967295".toUTF8.toList =
      [("1".toUTF8.toList, some 45), ("4294967295".toUTF8.toList, none)] := by decide +kernel
  have hfirst : stringToLong "1".toUTF8.toList false = (.ok 1, false) := by decide +kernel
  have hsecond : stringToLong "4294967295".toUTF8.toList false = (.ok 4294967295, false) := by decide +kernel
  have hnarrow : narrow 1 = 1 := by decide
  rw [htokens] at hfill
  generalize "1".toUTF8.toList = first at hfirst hfill
  generalize "4294967295".toUTF8.toList = second at hsecond hfill
  simp [Fillable, hfirst, hsecond, hnarrow] at hfill

end Retif
