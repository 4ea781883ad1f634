import BoundSql.Parameter.Encoder

/-!
# When an encoder succeeds

A run of encoders one after the other succeeds exactly if each of them does, from the buffer that
the one before it left. Range checks pass the number on and leave the buffer alone; emitting never
fails and adds its bytes at the end. So an encoder that checks first and emits afterwards is
*atomic*: a value that it refuses leaves no byte behind.
-/

namespace BoundSql.Parameter

variable {α β : Type}

/-- Encoders in sequence succeed one by one. -/
theorem run_bind_eq_ok {x : Encoder α} {f : α → Encoder β} {buffer buffer'' : Array UInt8}
    {b : β} :
    (x >>= f).run buffer = .ok b buffer'' ↔
      ∃ a buffer', x.run buffer = .ok a buffer' ∧ (f a).run buffer' = .ok b buffer'' := by
  rw [EStateM.run_bind]
  cases h : x.run buffer with
  | ok a buffer' =>
    constructor
    · intro hf
      exact ⟨a, buffer', rfl, hf⟩
    · rintro ⟨a', buffer₁, heq, hf⟩
      cases heq
      exact hf
  | error e buffer' =>
    constructor
    · intro hf
      cases hf
    · rintro ⟨_, _, heq, _⟩
      cases heq

/-! ### Emitting -/

/-- Bytes are added at the end. -/
theorem append_bytes_append (buffer : Array UInt8) (as bs : List UInt8) :
    buffer ++ as ++ bs = buffer ++ (as ++ bs) := by
  apply Array.ext'
  simp

theorem append_bytes_cancel {buffer : Array UInt8} {as bs : List UInt8}
    (h : buffer ++ as = buffer ++ bs) : as = bs := by
  have hlist := congrArg Array.toList h
  rw [Array.toList_appendList, Array.toList_appendList] at hlist
  exact List.append_cancel_left hlist

theorem run_emit16_bind (n : Int) (next : Unit → Encoder β) (buffer : Array UInt8) :
    (emit16 n >>= next).run buffer = (next ()).run (buffer ++ bigEndian 2 n) := rfl

theorem run_forM_emit16 (ns : List Nat) (buffer : Array UInt8) :
    (ns.forM fun n : Nat => emit16 n : Encoder Unit).run buffer =
      .ok () (buffer ++ ns.flatMap fun n : Nat => bigEndian 2 n) := by
  induction ns generalizing buffer with
  | nil =>
    rw [List.flatMap_nil, Array.appendList_nil]
    rfl
  | cons n ns ih =>
    show (emit16 n >>= fun _ => ns.forM fun n : Nat => emit16 n : Encoder Unit).run buffer = _
    rw [run_emit16_bind, ih, List.flatMap_cons, append_bytes_append]

/-! ### Values that were read -/

theorem run_accept_eq_ok {ε : Type} {refuse : ε → BindError} {x : Except ε α} {a : α}
    {buffer buffer' : Array UInt8} :
    (accept refuse x).run buffer = .ok a buffer' ↔ x = .ok a ∧ buffer' = buffer := by
  cases x with
  | ok b =>
    constructor
    · rintro ⟨⟩
      exact ⟨rfl, rfl⟩
    · rintro ⟨⟨⟩, rfl⟩
      rfl
  | error e =>
    constructor
    · rintro ⟨⟩
    · rintro ⟨⟨⟩, -⟩

/-! ### Range checks -/

/-- A range check succeeds exactly inside the range. -/
theorem run_inRange_eq_ok {low high n m : Int} {buffer buffer' : Array UInt8} :
    (inRange low high n).run buffer = .ok m buffer' ↔
      (low ≤ n ∧ n ≤ high) ∧ m = n ∧ buffer' = buffer := by
  unfold inRange
  by_cases hlow : n < low
  · rw [if_pos hlow]
    constructor
    · intro h
      cases h
    · omega
  · rw [if_neg hlow]
    by_cases hhigh : high < n
    · rw [if_pos hhigh]
      constructor
      · intro h
        cases h
      · omega
    · rw [if_neg hhigh]
      constructor
      · intro h
        cases h
        exact ⟨⟨by omega, by omega⟩, rfl, rfl⟩
      · rintro ⟨-, rfl, rfl⟩
        rfl

/-- The signed numbers of two bytes. -/
theorem run_signed_two_eq_ok {n m : Int} {buffer buffer' : Array UInt8} :
    (signed 2 n).run buffer = .ok m buffer' ↔
      (-32768 ≤ n ∧ n ≤ 32767) ∧ m = n ∧ buffer' = buffer :=
  run_inRange_eq_ok

/-- The unsigned numbers of two bytes. -/
theorem run_unsigned_two_eq_ok {n m : Int} {buffer buffer' : Array UInt8} :
    (unsigned 2 n).run buffer = .ok m buffer' ↔
      (0 ≤ n ∧ n ≤ 65535) ∧ m = n ∧ buffer' = buffer :=
  run_inRange_eq_ok

/-! ### Refused values -/

/-- A value that is refused leaves the buffer as it was. -/
def Encoder.Atomic (x : Encoder α) : Prop :=
  ∀ buffer e buffer', x.run buffer = .error e buffer' → buffer' = buffer

theorem atomic_throw (e : BindError) : Encoder.Atomic (throw e : Encoder α) := by
  intro buffer e' buffer' h
  cases h
  rfl

/-- What always succeeds refuses nothing. -/
theorem atomic_of_forall_ok {x : Encoder α}
    (h : ∀ buffer, ∃ a buffer', x.run buffer = .ok a buffer') : x.Atomic := by
  intro buffer e buffer' herror
  obtain ⟨a, _, hok⟩ := h buffer
  rw [hok] at herror
  cases herror

/-- A check may go before. -/
theorem Encoder.Atomic.bind {x : Encoder α} {f : α → Encoder β} (hx : x.Atomic)
    (hcheck : ∀ buffer a buffer', x.run buffer = .ok a buffer' → buffer' = buffer)
    (hf : ∀ a, (f a).Atomic) : (x >>= f).Atomic := by
  intro buffer e buffer' h
  rw [EStateM.run_bind] at h
  cases hrun : x.run buffer with
  | ok a buffer₁ =>
    rw [hrun] at h
    obtain rfl := hcheck buffer a buffer₁ hrun
    exact hf a _ e buffer' h
  | error e₁ buffer₁ =>
    rw [hrun] at h
    cases h
    exact hx buffer e buffer' hrun

theorem atomic_inRange (low high n : Int) : (inRange low high n).Atomic := by
  unfold inRange
  split
  · exact atomic_throw _
  · split
    · exact atomic_throw _
    · exact atomic_of_forall_ok fun buffer => ⟨n, buffer, rfl⟩

/-- A number that is checked before anything else. -/
theorem atomic_inRange_bind {low high n : Int} {f : Int → Encoder β} (hf : ∀ m, (f m).Atomic) :
    (inRange low high n >>= f).Atomic :=
  (atomic_inRange low high n).bind (fun _ _ _ h => (run_inRange_eq_ok.mp h).2.2) hf

/-! ### Big-endian numbers -/

theorem length_bigEndian (width : Nat) (n : Int) : (bigEndian width n).length = width := by
  rw [bigEndian, List.length_map, List.length_reverse, List.length_range]

/-- A number of two bytes, the most significant byte first. -/
theorem bigEndian_two (n : Int) :
    bigEndian 2 n = [UInt8.ofNat (n / 256 % 256).toNat, UInt8.ofNat (n % 256).toNat] := by
  have h : (n / (Number.pow2 (8 * 0) : Nat) % 256) = n % 256 := by
    rw [show Number.pow2 (8 * 0) = 1 from rfl]
    omega
  rw [← h]
  rfl

end BoundSql.Parameter
