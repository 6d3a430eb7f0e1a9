import Mathlib.Data.List.Nodup
import WifiMemfault.LogStateImage

/-!
# The SDK's log ring buffer

The ring buffer of the Memfault SDK, as far as this firmware relies on it: a sequence of lines, oldest
first, with a mark behind the lines an upload has read.  Saving a line evicts lines from the front to
make room and appends, or drops the line; an upload moves the mark.

The SDK itself is a parameter.  `LogSdk` says how the context and storage bytes determine the ring and
that its two operations are those of `LogRing` on these bytes.  Lines are numbered in the order they are
saved, and what a line says plays no role.
-/

namespace WifiMemfault.MemfaultLog

open LogStateImage

/-- The lines of a ring buffer, oldest first; the first `read` of them have been read. -/
@[ext] structure LogRing where
  entries : List ℕ
  read : ℕ
  read_le : read ≤ entries.length
  deriving DecidableEq

namespace LogRing

/-- The lines no upload has read. -/
def unsent (r : LogRing) : List ℕ := r.entries.drop r.read

/-- Evict the `k` oldest lines and append line `n`. -/
def save (k n : ℕ) (r : LogRing) : LogRing where
  entries := r.entries.drop k ++ [n]
  read := r.read - k
  read_le := by
    have h := r.read_le
    rw [List.length_append, List.length_drop]
    omega

/-- An upload reads the next `k` lines. -/
def markRead (k : ℕ) (r : LogRing) : LogRing where
  entries := r.entries
  read := min (r.read + k) r.entries.length
  read_le := Nat.min_le_right _ _

theorem unsent_subset (r : LogRing) {m : ℕ} (h : m ∈ r.unsent) : m ∈ r.entries :=
  List.mem_of_mem_drop h

theorem mem_entries_save {r : LogRing} {k n m : ℕ} (h : m ∈ (r.save k n).entries) :
    m ∈ r.entries ∨ m = n := by
  rcases List.mem_append.mp h with h | h
  · exact Or.inl (List.mem_of_mem_drop h)
  · exact Or.inr (List.mem_singleton.mp h)

theorem mem_unsent_save {r : LogRing} {k n m : ℕ} (h : m ∈ (r.save k n).unsent) :
    m ∈ r.unsent ∨ m = n := by
  have hle := r.read_le
  rw [unsent, save] at h
  simp only at h
  rcases Nat.le_total k r.read with hk | hk
  · rw [List.drop_append_of_le_length (by rw [List.length_drop]; omega), List.drop_drop,
      Nat.add_sub_cancel' hk] at h
    rcases List.mem_append.mp h with h | h
    · exact Or.inl h
    · exact Or.inr (List.mem_singleton.mp h)
  · rw [Nat.sub_eq_zero_of_le hk, List.drop_zero] at h
    rcases List.mem_append.mp h with h | h
    · left
      have hsplit : r.entries.drop k = r.unsent.drop (k - r.read) := by
        rw [unsent, List.drop_drop, Nat.add_sub_cancel' hk]
      rw [hsplit] at h
      exact List.mem_of_mem_drop h
    · exact Or.inr (List.mem_singleton.mp h)

theorem nodup_save {r : LogRing} {k n : ℕ} (h : r.entries.Nodup) (hn : n ∉ r.entries) :
    (r.save k n).entries.Nodup := by
  refine List.nodup_append.mpr ⟨h.sublist (List.drop_sublist k _), List.nodup_singleton n, ?_⟩
  intro a ha b hb
  rw [List.mem_singleton.mp hb]
  intro hab
  exact hn (hab ▸ List.mem_of_mem_drop ha)

theorem unsent_markRead (r : LogRing) (k : ℕ) : (r.markRead k).unsent = r.unsent.drop k := by
  have hle := r.read_le
  rw [unsent, unsent, markRead, List.drop_drop]
  simp only
  rcases Nat.le_total (r.read + k) r.entries.length with h | h
  · rw [Nat.min_eq_left h]
  · rw [Nat.min_eq_right h, List.drop_length, List.drop_of_length_le h]

/-- The lines an upload reads next are none of those it leaves unsent. -/
theorem taken_not_unsent {r : LogRing} {k m : ℕ} (hnodup : r.entries.Nodup)
    (h : m ∈ r.unsent.take k) : m ∉ (r.markRead k).unsent := by
  rw [unsent_markRead]
  have hun : r.unsent.Nodup := hnodup.sublist (List.drop_sublist _ _)
  have hsplit := List.take_append_drop k r.unsent
  rw [← hsplit] at hun
  intro hmem
  exact (List.nodup_append.mp hun).2.2 m h m hmem rfl

end LogRing

/-- The SDK on the bytes `memfault_log_get_state` points to: the ring buffer they determine, saving a
line, and reading lines for an upload. -/
structure LogSdk where
  ring : LogSnapshot → LogRing
  save : ℕ → LogSnapshot → LogSnapshot
  markRead : ℕ → LogSnapshot → LogSnapshot
  save_context : ∀ n s, (save n s).context.length = s.context.length
  save_storage : ∀ n s, (save n s).storage.length = s.storage.length
  markRead_context : ∀ k s, (markRead k s).context.length = s.context.length
  markRead_storage : ∀ k s, (markRead k s).storage.length = s.storage.length
  /-- A line is dropped, or appended after an eviction of the oldest lines. -/
  ring_save : ∀ n s, ring (save n s) = ring s ∨ ∃ k, ring (save n s) = (ring s).save k n
  ring_markRead : ∀ k s, ring (markRead k s) = (ring s).markRead k

variable (sdk : LogSdk)

theorem LogSdk.save_wellSized {s : LogSnapshot} (n : ℕ) (h : s.WellSized) :
    (sdk.save n s).WellSized := by
  obtain ⟨hc, hs, hcl, hsl⟩ := h
  refine ⟨?_, ?_, ?_, ?_⟩
  · rwa [sdk.save_context]
  · rwa [sdk.save_storage]
  · rwa [sdk.save_context]
  · rwa [sdk.save_storage]

theorem LogSdk.markRead_wellSized {s : LogSnapshot} (k : ℕ) (h : s.WellSized) :
    (sdk.markRead k s).WellSized := by
  obtain ⟨hc, hs, hcl, hsl⟩ := h
  refine ⟨?_, ?_, ?_, ?_⟩
  · rwa [sdk.markRead_context]
  · rwa [sdk.markRead_storage]
  · rwa [sdk.markRead_context]
  · rwa [sdk.markRead_storage]

theorem LogSdk.mem_entries_save {s : LogSnapshot} {n m : ℕ}
    (h : m ∈ (sdk.ring (sdk.save n s)).entries) : m ∈ (sdk.ring s).entries ∨ m = n := by
  rcases sdk.ring_save n s with heq | ⟨k, heq⟩
  · rw [heq] at h
    exact Or.inl h
  · rw [heq] at h
    exact LogRing.mem_entries_save h

theorem LogSdk.mem_unsent_save {s : LogSnapshot} {n m : ℕ}
    (h : m ∈ (sdk.ring (sdk.save n s)).unsent) : m ∈ (sdk.ring s).unsent ∨ m = n := by
  rcases sdk.ring_save n s with heq | ⟨k, heq⟩
  · rw [heq] at h
    exact Or.inl h
  · rw [heq] at h
    exact LogRing.mem_unsent_save h

theorem LogSdk.nodup_save {s : LogSnapshot} {n : ℕ} (h : (sdk.ring s).entries.Nodup)
    (hn : n ∉ (sdk.ring s).entries) : (sdk.ring (sdk.save n s)).entries.Nodup := by
  rcases sdk.ring_save n s with heq | ⟨k, heq⟩
  · rw [heq]
    exact h
  · rw [heq]
    exact LogRing.nodup_save h hn

end WifiMemfault.MemfaultLog
