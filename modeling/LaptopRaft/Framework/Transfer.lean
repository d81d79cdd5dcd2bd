import LaptopRaft.Framework.Buffer

/-!
# Transfers over a stream socket

A loop around `send` or `recv` moves a number of bytes between a buffer and a stream, some of
them at each call of the system.  A `Transfer` is the state of such a loop: the buffer, how far
it has come and how much is left.  It is in bounds if what is left lies within the buffer
(`InBounds`), and then no call touches anything outside.

What a sender has yet to write is `remaining`, what a receiver has read so far is `received`.
Each call takes its bytes off the former or puts them on the latter, so however the bytes are
split, a complete transfer moves them all and in order.
-/

namespace LaptopRaft

/-- The state of a loop around `send` or `recv`. -/
structure Transfer where
  buffer : List UInt8
  offset : ℕ := 0
  size : ℕ
deriving DecidableEq

namespace Transfer

variable (t : Transfer)

/-- `send` takes `k` bytes: the loop afterwards, and the bytes. -/
def send (k : ℕ) : Option (Transfer × List UInt8) :=
  (copyFrom t.buffer t.offset k).map fun bytes =>
    ({ t with offset := t.offset + k, size := t.size - k }, bytes)

/-- `recv` delivers some bytes. -/
def recv (bytes : List UInt8) : Option Transfer :=
  (copyTo t.buffer t.offset bytes).map fun buffer =>
    { buffer := buffer, offset := t.offset + bytes.length, size := t.size - bytes.length }

def remaining : List UInt8 := (t.buffer.drop t.offset).take t.size

def received : List UInt8 := t.buffer.take t.offset

def InBounds : Prop := t.offset + t.size ≤ t.buffer.length

variable {t} {t' : Transfer} {k : ℕ} {bytes : List UInt8}

lemma received_length (h : t.InBounds) : t.received.length = t.offset := by
  unfold InBounds at h
  rw [received, List.length_take]
  omega

/-! ## Sending -/

theorem send_defined (h : t.InBounds) (hk : k ≤ t.size) : ∃ p, t.send k = some p := by
  unfold InBounds at h
  exact ⟨_, by rw [send, copyFrom, if_pos (by omega), Option.map_some]⟩

theorem send_spec (hk : k ≤ t.size) (h : t.send k = some (t', bytes)) :
    t.remaining = bytes ++ t'.remaining ∧ t'.size = t.size - k ∧ bytes.length = k ∧
      (t.InBounds → t'.InBounds) := by
  rw [send, copyFrom] at h
  split at h
  · rename_i hroom
    obtain ⟨rfl, rfl⟩ : _ ∧ _ := by simpa using h
    have hsplit : t.size = k + (t.size - k) := by omega
    refine ⟨?_, rfl, ?_, fun hbounds => ?_⟩
    · rw [remaining, remaining, ← List.drop_drop, hsplit, List.take_add]
      simp
    · rw [List.length_take, List.length_drop]
      omega
    · unfold InBounds at hbounds ⊢
      simp only
      omega
  · cases h

lemma remaining_of_size_eq_zero (h : t.size = 0) : t.remaining = [] := by
  rw [remaining, h, List.take_zero]

/-! ## Receiving -/

theorem recv_defined (h : t.InBounds) (hk : bytes.length ≤ t.size) :
    ∃ t', t.recv bytes = some t' := by
  unfold InBounds at h
  exact ⟨_, by rw [recv, copyTo, if_pos (by omega), Option.map_some]⟩

theorem recv_spec (hk : bytes.length ≤ t.size) (h : t.recv bytes = some t') :
    t'.received = t.received ++ bytes ∧ t'.offset + t'.size = t.offset + t.size ∧
      t'.size = t.size - bytes.length ∧ (t.InBounds → t'.InBounds) := by
  rw [recv, copyTo] at h
  split at h
  · rename_i hroom
    obtain rfl : _ = t' := by simpa using h
    refine ⟨take_overwrite hroom, ?_, rfl, fun hbounds => ?_⟩
    · simp only
      omega
    · unfold InBounds at hbounds ⊢
      simp only [overwrite_length hroom]
      omega
  · cases h

end Transfer

end LaptopRaft
