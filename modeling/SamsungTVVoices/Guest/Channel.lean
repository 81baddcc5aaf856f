/-
The guest's end of the virtio channel (`samsung_guest.cpp`, `writeExact` and `sendMessage`).

A `write` on the channel may be interrupted by a signal, may fail, and may take fewer bytes
than it was offered.  The results of the successive calls are an input of the model, so a
statement about all of them is a statement about every behaviour of the channel.
-/
import SamsungTVVoices.Protocol

namespace SamsungTVVoices.Guest

/-- What one `write` system call returns. -/
inductive WriteResult where
  /-- `-1` with `errno == EINTR`. -/
  | interrupted
  /-- Any other failure. -/
  | failed
  /-- The number of bytes that the channel took. -/
  | wrote (count : ℕ)
deriving DecidableEq, Repr

/-- The outcome of a write: whether it succeeded, the bytes that went out, and the results
of the system calls that were not used. -/
structure Written where
  ok : Bool
  bytes : Bytes
  rest : List WriteResult

/-- `writeExact`: repeat the call until everything is out or it fails.  A list of results
that ends early is a channel that blocks, which a caller sees as no success. -/
def writeExact : List WriteResult → Bytes → Written
  | rs, [] => ⟨true, [], rs⟩
  | [], _ :: _ => ⟨false, [], []⟩
  | .interrupted :: rs, b :: bs => writeExact rs (b :: bs)
  | .failed :: rs, _ :: _ => ⟨false, [], rs⟩
  | .wrote 0 :: rs, _ :: _ => ⟨false, [], rs⟩
  | .wrote (k + 1) :: rs, b :: bs =>
      let w := writeExact rs ((b :: bs).drop (k + 1))
      { w with bytes := (b :: bs).take (k + 1) ++ w.bytes }

/-- `sendMessage`, under the output mutex: the header, then the payload if there is one. -/
def sendMessage (rs : List WriteResult) (f : Frame) : Written :=
  let w := writeExact rs f.header.toBytes
  if w.ok ∧ f.payload ≠ [] then
    let v := writeExact w.rest f.payload
    { v with bytes := w.bytes ++ v.bytes }
  else w

/-- A write that succeeds has put out exactly its data, however it was cut. -/
lemma writeExact_of_ok (rs : List WriteResult) (data : Bytes) (h : (writeExact rs data).ok) :
    (writeExact rs data).bytes = data := by
  induction rs generalizing data with
  | nil =>
      cases data with
      | nil => rfl
      | cons b bs => simp [writeExact] at h
  | cons r rs ih =>
      cases data with
      | nil => rfl
      | cons b bs =>
          match r with
          | .interrupted => exact ih (b :: bs) (by simpa [writeExact] using h)
          | .failed => simp [writeExact] at h
          | .wrote 0 => simp [writeExact] at h
          | .wrote (k + 1) =>
              have hrest := ih ((b :: bs).drop (k + 1)) (by simpa [writeExact] using h)
              rw [writeExact, hrest]
              exact List.take_append_drop (k + 1) (b :: bs)

/-- A message that was sent is its frame on the wire. -/
theorem sendMessage_of_ok (rs : List WriteResult) (f : Frame) (h : (sendMessage rs f).ok) :
    (sendMessage rs f).bytes = f.toBytes := by
  by_cases hif : (writeExact rs f.header.toBytes).ok ∧ f.payload ≠ []
  · rw [sendMessage, if_pos hif] at h ⊢
    exact congrArg₂ (· ++ ·) (writeExact_of_ok _ _ hif.1) (writeExact_of_ok _ _ h)
  · rw [sendMessage, if_neg hif] at h ⊢
    have hnil : f.payload = [] := by
      by_contra hne
      exact hif ⟨h, hne⟩
    rw [writeExact_of_ok _ _ h, Frame.toBytes, hnil, List.append_nil]

end SamsungTVVoices.Guest
