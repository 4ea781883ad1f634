import Mathlib.Data.List.Defs

/-!
# Chunks of a list

`List.toChunks n` cuts a list into chunks of `n` entries, and what is left at the end is a shorter
chunk. If nothing is left, the chunks are the one way to cut the list into lists of that length:

    toChunks_flatten : lists of one length are the chunks of what they are together
-/

namespace BoundSql

variable {α : Type} {n : Nat}

/-- Chunks that are finished stay as they are. -/
theorem toChunks_go_eq (n : Nat) (xs : List α) (chunk : Array α) (chunks : Array (List α)) :
    List.toChunks.go n xs chunk chunks = chunks.toList ++ List.toChunks.go n xs chunk #[] := by
  induction xs generalizing chunk chunks with
  | nil => simp [List.toChunks.go]
  | cons x xs ih =>
    rw [List.toChunks.go, List.toChunks.go]
    split
    · rw [ih, ih _ (Array.push _ _)]
      simp
    · exact ih _ _

/-- A chunk that is begun takes what it lacks. -/
theorem toChunks_go_append (hn : n ≠ 0) {chunk : Array α} {front rest : List α}
    (hlength : chunk.size + front.length = n) :
    List.toChunks.go n (front ++ rest) chunk #[] =
      (chunk.toList ++ front) :: rest.toChunks n := by
  induction front generalizing chunk with
  | nil =>
    cases rest with
    | nil => simp [List.toChunks.go, List.toChunks]
    | cons x rest =>
      have hfull : (chunk.size == n) = true := by simpa using hlength
      rw [List.nil_append, List.append_nil, List.toChunks.go, if_pos hfull, toChunks_go_eq,
        List.toChunks.eq_3 _ _ _ hn]
      rfl
  | cons x front ih =>
    rw [List.length_cons] at hlength
    have hopen : ¬(chunk.size == n) = true := by
      rw [beq_iff_eq]
      omega
    rw [List.cons_append, List.toChunks.go, if_neg hopen, ih (by rw [Array.size_push]; omega),
      Array.toList_push, List.append_assoc, List.singleton_append]

theorem toChunks_append (hn : n ≠ 0) {front rest : List α} (hlength : front.length = n) :
    (front ++ rest).toChunks n = front :: rest.toChunks n := by
  cases front with
  | nil => exact absurd hlength.symm hn
  | cons x front =>
    have hone : (#[x] : Array α).size + front.length = n := by
      rw [← hlength, List.length_cons, Nat.add_comm]
      rfl
    rw [List.cons_append, List.toChunks.eq_3 _ _ _ hn, toChunks_go_append hn hone]
    rfl

/-- Lists of one length are the chunks of what they are together. -/
theorem toChunks_flatten (hn : n ≠ 0) {chunks : List (List α)}
    (h : ∀ chunk ∈ chunks, chunk.length = n) : chunks.flatten.toChunks n = chunks := by
  induction chunks with
  | nil => simp [List.toChunks]
  | cons chunk chunks ih =>
    rw [List.flatten_cons, toChunks_append hn (h chunk List.mem_cons_self),
      ih fun c hc => h c (List.mem_cons_of_mem chunk hc)]

/-- A list whose length is divisible falls into lists of one length. -/
theorem exists_flatten_eq {k : Nat} {xs : List α} (hlength : xs.length = n * k) :
    ∃ chunks : List (List α), chunks.flatten = xs ∧ ∀ chunk ∈ chunks, chunk.length = n := by
  induction k generalizing xs with
  | zero => exact ⟨[], (List.length_eq_zero_iff.mp hlength).symm, by simp⟩
  | succ k ih =>
    rw [Nat.mul_succ] at hlength
    have hrest : (xs.drop n).length = n * k := by
      rw [List.length_drop]
      omega
    obtain ⟨chunks, hflatten, hchunks⟩ := ih hrest
    refine ⟨xs.take n :: chunks, ?_, List.forall_mem_cons.mpr ⟨?_, hchunks⟩⟩
    · rw [List.flatten_cons, hflatten, List.take_append_drop]
    · rw [List.length_take]
      omega

end BoundSql
