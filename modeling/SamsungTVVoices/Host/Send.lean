/-
The host's side of the channel (`samsungTVVoices.py`, `_SamsungHost.send`).

The stream is a raw socket file: a `write` may take fewer bytes than it is offered and returns how
many, and `send` does not look at that.  A step is one section of a thread between two points where
another can run: the checks and the packing, taking `_writeLock`, the write, and the flush with the
release of the lock.  What is on the channel is whole packets exactly as long as no send returns
after a short write (`writtenWhole_iff`).
-/
import SamsungTVVoices.Driver.Speech
import SamsungTVVoices.Lib.StepSystem
import Mathlib.Data.List.ModifyLast
import Mathlib.Logic.Function.Basic

open StepSystem
open SamsungTVVoices.Driver (packFrame)

namespace SamsungTVVoices.Host

/-! ### The threads -/

/-- Where a thread is in `send`. -/
inductive SendPc where
  | idle
  /-- About to take `_writeLock`. -/
  | acquire (packet : Bytes)
  | write (packet : Bytes)
  /-- The write has taken so many bytes. -/
  | flush (packet : Bytes) (taken : ℕ)
deriving DecidableEq, Repr

/-- What has become of a call of `send` that has taken the lock. -/
inductive SendOutcome where
  | pending | returned | raised
deriving DecidableEq, Repr

structure Sent where
  packet : Bytes
  outcome : SendOutcome
deriving DecidableEq, Repr

structure SendState where
  threads : ℕ → SendPc
  /-- The thread that holds `_writeLock`. -/
  writeLock : Option ℕ
  /-- The stream is closed. -/
  closed : Bool
  /-- What the stream has taken. -/
  channel : Bytes
  /-- The calls that have taken the lock, in their order. -/
  sends : List Sent

def SendState.initial : SendState where
  threads := fun _ => .idle
  writeLock := none
  closed := false
  channel := []
  sends := []

/-- Set what has become of the last call. -/
def settle (outcome : SendOutcome) (sends : List Sent) : List Sent :=
  sends.modifyLast fun sent => { sent with outcome := outcome }

namespace SendState

def goOn (s : SendState) (thread : ℕ) (pc : SendPc) : SendState :=
  { s with threads := Function.update s.threads thread pc }

lemma goOn_self (s : SendState) (thread : ℕ) (pc : SendPc) :
    (s.goOn thread pc).threads thread = pc := Function.update_self _ _ _

lemma goOn_of_ne (s : SendState) {thread u : ℕ} (pc : SendPc) (h : u ≠ thread) :
    (s.goOn thread pc).threads u = s.threads u := Function.update_of_ne h _ _

/-- The thread leaves the section under the lock, and `send`. -/
def leave (s : SendState) (thread : ℕ) (outcome : SendOutcome) : SendState :=
  { s.goOn thread .idle with writeLock := none, sends := settle outcome s.sends }

end SendState

inductive SendAction where
  /-- A thread calls `send`; whether the process is found to run. -/
  | call (thread : ℕ) (running : Bool) (type : SamsungMessage) (generation : UInt32)
      (payload : Bytes)
  | acquire (thread : ℕ)
  /-- The write takes so many bytes, or raises. -/
  | write (thread : ℕ) (taken : Option ℕ)
  | flush (thread : ℕ)
  /-- The stream is closed. -/
  | close
deriving DecidableEq, Repr

def sendStep (s : SendState) : SendAction → Option SendState
  | .call thread running type generation payload =>
      if s.threads thread ≠ .idle then none
      -- `_HostError`
      else if running = false then some s
      else
        match packFrame type generation payload with
        -- `struct.error`
        | none => some s
        | some frame => some (s.goOn thread (.acquire frame.toBytes))
  | .acquire thread =>
      match s.threads thread with
      | .acquire packet =>
          if s.writeLock = none then
            some { s.goOn thread (.write packet) with
              writeLock := some thread, sends := s.sends ++ [⟨packet, .pending⟩] }
          else none
      | _ => none
  | .write thread taken =>
      match s.threads thread, taken with
      | .write _, none => some (s.leave thread .raised)
      | .write packet, some k =>
          -- a closed stream raises
          if s.closed = false ∧ 1 ≤ k ∧ k ≤ packet.length then
            some { s.goOn thread (.flush packet k) with channel := s.channel ++ packet.take k }
          else none
      | _, _ => none
  | .flush thread =>
      match s.threads thread with
      | .flush _ _ => some (s.leave thread (if s.closed then .raised else .returned))
      | _ => none
  | .close => some { s with closed := true }

/-! ### The property -/

/-- The packets of the calls that have returned. -/
def returnedPackets (sends : List Sent) : Bytes :=
  ((sends.filter (·.outcome = .returned)).map (·.packet)).flatten

/-- The channel has the whole packets of the calls that have returned, in the order in which they
took the lock, and then at most a part of the packet of one that raised, or that still has the
lock. -/
def WrittenWhole (s : SendState) : Prop :=
  ∃ rest, s.channel = returnedPackets s.sends ++ rest ∧
    (rest = [] ∨ ∃ sent ∈ s.sends, rest <+: sent.packet ∧
      (sent.outcome = .raised ∨ sent.outcome = .pending ∧ s.writeLock ≠ none))

/-- The write has taken the whole packet. -/
def SendPc.Whole : SendPc → Prop
  | .flush packet taken => taken = packet.length
  | _ => True

instance : (pc : SendPc) → Decidable pc.Whole
  | .flush packet taken => inferInstanceAs (Decidable (taken = packet.length))
  | .idle => .isTrue trivial
  | .acquire _ => .isTrue trivial
  | .write _ => .isTrue trivial

/-- A send that is about to return has written its whole packet. -/
def ReturnsWhole (s : SendState) : SendAction → Prop
  | .flush thread => s.closed = false → (s.threads thread).Whole
  | _ => True

instance (s : SendState) : (a : SendAction) → Decidable (ReturnsWhole s a)
  | .flush thread => inferInstanceAs (Decidable (s.closed = false → (s.threads thread).Whole))
  | .call _ _ _ _ _ => .isTrue trivial
  | .acquire _ => .isTrue trivial
  | .write _ _ => .isTrue trivial
  | .close => .isTrue trivial

/-! ### The invariant -/

/-- The thread is in the section under the lock. -/
def SendPc.Holds : SendPc → Prop
  | .write _ | .flush _ _ => True
  | .idle | .acquire _ => False

/-- The channel behind the packets that have been written whole: nothing, or what a send that
found the stream closed has left. -/
def RestOf (closed : Bool) (sends : List Sent) (rest : Bytes) : Prop :=
  rest = [] ∨ closed = true ∧ ∃ sent ∈ sends, rest <+: sent.packet ∧ sent.outcome = .raised

/-- One thread at most is in the section under the lock, and all writes so far were whole. -/
inductive SendInv (s : SendState) : Prop
  | free (rest : Bytes) (hlock : s.writeLock = none)
      (hthreads : ∀ thread, ¬(s.threads thread).Holds)
      (hchannel : s.channel = returnedPackets s.sends ++ rest)
      (hrest : RestOf s.closed s.sends rest)
  | writing (thread : ℕ) (packet : Bytes) (before : List Sent) (rest : Bytes)
      (hlock : s.writeLock = some thread) (hpc : s.threads thread = .write packet)
      (hthreads : ∀ t, (s.threads t).Holds → t = thread)
      (hsends : s.sends = before ++ [⟨packet, .pending⟩])
      (hchannel : s.channel = returnedPackets before ++ rest)
      (hrest : RestOf s.closed before rest)
  | flushing (thread : ℕ) (packet : Bytes) (taken : ℕ) (before : List Sent)
      (hlock : s.writeLock = some thread) (hpc : s.threads thread = .flush packet taken)
      (hthreads : ∀ t, (s.threads t).Holds → t = thread)
      (hsends : s.sends = before ++ [⟨packet, .pending⟩])
      (hchannel : s.channel = returnedPackets before ++ packet.take taken)
      (htaken : taken ≤ packet.length)

variable {s t : SendState} {a : SendAction}

lemma returnedPackets_concat (sends : List Sent) (packet : Bytes) (outcome : SendOutcome) :
    returnedPackets (sends ++ [⟨packet, outcome⟩]) =
      returnedPackets sends ++ if outcome = .returned then packet else [] := by
  rw [returnedPackets, List.filter_append, List.map_append, List.flatten_append]
  cases outcome <;> simp [returnedPackets]

lemma settle_concat (sends : List Sent) (sent : Sent) (outcome : SendOutcome) :
    settle outcome (sends ++ [sent]) = sends ++ [{ sent with outcome := outcome }] :=
  List.modifyLast_concat _ _ _

lemma RestOf.mono {sends sends' : List Sent} {closed closed' : Bool} {rest : Bytes}
    (h : RestOf closed sends rest) (hclosed : closed = true → closed' = true)
    (hsends : sends ⊆ sends') : RestOf closed' sends' rest := by
  rcases h with rfl | ⟨hc, sent, hsent, hrest, hraised⟩
  · exact Or.inl rfl
  · exact Or.inr ⟨hclosed hc, sent, hsends hsent, hrest, hraised⟩

/-- What the invariant says of the channel. -/
lemma SendInv.writtenWhole (h : SendInv s) : WrittenWhole s := by
  cases h with
  | free rest hlock hthreads hchannel hrest =>
      refine ⟨rest, hchannel, ?_⟩
      rcases hrest with hrest | ⟨-, sent, hsent, hprefix, hraised⟩
      · exact Or.inl hrest
      · exact Or.inr ⟨sent, hsent, hprefix, Or.inl hraised⟩
  | writing thread packet before rest hlock hpc hthreads hsends hchannel hrest =>
      refine ⟨rest, ?_, ?_⟩
      · rw [hsends, returnedPackets_concat, hchannel]
        simp
      · rw [hsends]
        rcases hrest with hrest | ⟨-, sent, hsent, hprefix, hraised⟩
        · exact Or.inl hrest
        · exact Or.inr ⟨sent, List.mem_append_left _ hsent, hprefix, Or.inl hraised⟩
  | flushing thread packet taken before hlock hpc hthreads hsends hchannel htaken =>
      refine ⟨packet.take taken, ?_, Or.inr ⟨⟨packet, .pending⟩, ?_, List.take_prefix _ _, ?_⟩⟩
      · rw [hsends, returnedPackets_concat, hchannel]
        simp
      · rw [hsends]
        exact List.mem_append_right _ (List.mem_singleton.2 rfl)
      · exact Or.inr ⟨rfl, by rw [hlock]; exact nofun⟩

/-- A step of a thread outside of the section under the lock. -/
lemma SendInv.outside {thread : ℕ} {pc : SendPc} (h : SendInv s)
    (hold : ¬(s.threads thread).Holds) (hnew : ¬pc.Holds) : SendInv (s.goOn thread pc) := by
  have hholds (u : ℕ) (hu : ((s.goOn thread pc).threads u).Holds) : (s.threads u).Holds := by
    rcases eq_or_ne u thread with rfl | hne
    · rw [SendState.goOn_self] at hu
      exact absurd hu hnew
    · rwa [SendState.goOn_of_ne s pc hne] at hu
  have hsame {u : ℕ} (hu : (s.threads u).Holds) :
      (s.goOn thread pc).threads u = s.threads u := by
    refine SendState.goOn_of_ne s pc ?_
    rintro rfl
    exact hold hu
  cases h with
  | free rest hlock hthreads hchannel hrest =>
      exact .free rest hlock (fun u hu => hthreads u (hholds u hu)) hchannel hrest
  | writing holder packet before rest hlock hpc hthreads hsends hchannel hrest =>
      exact .writing holder packet before rest hlock
        ((hsame (by rw [hpc]; trivial)).trans hpc) (fun u hu => hthreads u (hholds u hu)) hsends
        hchannel hrest
  | flushing holder packet taken before hlock hpc hthreads hsends hchannel htaken =>
      exact .flushing holder packet taken before hlock
        ((hsame (by rw [hpc]; trivial)).trans hpc) (fun u hu => hthreads u (hholds u hu)) hsends
        hchannel htaken

/-- The thread in the section under the lock. -/
lemma SendInv.lock_eq (h : SendInv s) {thread : ℕ} (hthread : (s.threads thread).Holds) :
    s.writeLock = some thread := by
  cases h with
  | free rest hlock hthreads => exact absurd hthread (hthreads thread)
  | writing holder packet before rest hlock hpc hthreads =>
      rw [hlock, hthreads thread hthread]
  | flushing holder packet taken before hlock hpc hthreads =>
      rw [hlock, hthreads thread hthread]

lemma not_holds_of_leave {thread : ℕ} (outcome : SendOutcome)
    (hthreads : ∀ u, (s.threads u).Holds → u = thread) (u : ℕ) :
    ¬((s.leave thread outcome).threads u).Holds := by
  show ¬((s.goOn thread .idle).threads u).Holds
  rcases eq_or_ne u thread with rfl | hne
  · rw [SendState.goOn_self]
    exact id
  · rw [SendState.goOn_of_ne s .idle hne]
    exact fun hu => hne (hthreads u hu)

/-- A thread that is about to write. -/
lemma SendInv.of_write (h : SendInv s) {thread : ℕ} {packet : Bytes}
    (hpc : s.threads thread = .write packet) :
    (∀ u, (s.threads u).Holds → u = thread) ∧ ∃ before rest,
      s.sends = before ++ [⟨packet, .pending⟩] ∧ s.channel = returnedPackets before ++ rest ∧
        RestOf s.closed before rest := by
  have hholds : (s.threads thread).Holds := by rw [hpc]; trivial
  cases h with
  | free rest hlock hthreads => exact absurd hholds (hthreads thread)
  | writing holder packet' before rest hlock hpc' hthreads hsends hchannel hrest =>
      obtain rfl := hthreads thread hholds
      rw [hpc] at hpc'
      cases hpc'
      exact ⟨hthreads, before, rest, hsends, hchannel, hrest⟩
  | flushing holder packet' taken before hlock hpc' hthreads =>
      obtain rfl := hthreads thread hholds
      rw [hpc] at hpc'
      cases hpc'

/-- A thread that has written. -/
lemma SendInv.of_flush (h : SendInv s) {thread taken : ℕ} {packet : Bytes}
    (hpc : s.threads thread = .flush packet taken) :
    (∀ u, (s.threads u).Holds → u = thread) ∧ ∃ before,
      s.sends = before ++ [⟨packet, .pending⟩] ∧
        s.channel = returnedPackets before ++ packet.take taken ∧ taken ≤ packet.length := by
  have hholds : (s.threads thread).Holds := by rw [hpc]; trivial
  cases h with
  | free rest hlock hthreads => exact absurd hholds (hthreads thread)
  | writing holder packet' before rest hlock hpc' hthreads =>
      obtain rfl := hthreads thread hholds
      rw [hpc] at hpc'
      cases hpc'
  | flushing holder packet' taken' before hlock hpc' hthreads hsends hchannel htaken =>
      obtain rfl := hthreads thread hholds
      rw [hpc] at hpc'
      cases hpc'
      exact ⟨hthreads, before, hsends, hchannel, htaken⟩

lemma SendInv.write {thread : ℕ} {taken : Option ℕ} (h : SendInv s)
    (hstep : Host.sendStep s (.write thread taken) = some t) : SendInv t := by
  unfold Host.sendStep at hstep
  dsimp only at hstep
  split at hstep
  · next packet hpc =>
      cases hstep
      obtain ⟨hthreads, before, rest, hsends, hchannel, hrest⟩ := h.of_write hpc
      have hsettled : settle .raised s.sends = before ++ [⟨packet, .raised⟩] := by
        rw [hsends, settle_concat]
      refine .free rest rfl (not_holds_of_leave _ hthreads) ?_ ?_
      · show s.channel = returnedPackets (settle .raised s.sends) ++ rest
        rw [hsettled, returnedPackets_concat, hchannel]
        simp
      · show RestOf s.closed (settle .raised s.sends) rest
        rw [hsettled]
        exact hrest.mono id (List.subset_append_left _ _)
  · next packet k hpc =>
      split at hstep
      · next hk =>
          cases hstep
          obtain ⟨hthreads, before, rest, hsends, hchannel, hrest⟩ := h.of_write hpc
          have hlock : s.writeLock = some thread := h.lock_eq (by rw [hpc]; trivial)
          -- nothing is left behind on a stream that is open
          obtain rfl : rest = [] := hrest.resolve_right fun hclosed => by
            rw [hk.1] at hclosed
            cases hclosed.1
          refine .flushing thread packet k before hlock (SendState.goOn_self _ _ _)
            (fun u hu => ?_) hsends ?_ hk.2.2
          · by_contra hne
            rw [SendState.goOn_of_ne s _ hne] at hu
            exact hne (hthreads u hu)
          · rw [hchannel, List.append_nil]
      · cases hstep
  · cases hstep

/-- A send that finds the stream open after its write returns. -/
lemma SendInv.flush {thread : ℕ} (h : SendInv s)
    (hstep : Host.sendStep s (.flush thread) = some t) :
    (ReturnsWhole s (.flush thread) → SendInv t) ∧
      (WrittenWhole t → ReturnsWhole s (.flush thread)) := by
  rw [Host.sendStep] at hstep
  split at hstep
  · next packet taken hpc =>
      cases hstep
      obtain ⟨hthreads, before, hsends, hchannel, htaken⟩ := h.of_flush hpc
      rw [ReturnsWhole, hpc]
      cases hclosed : s.closed with
      | true =>
          have hsettled : settle .raised s.sends = before ++ [⟨packet, .raised⟩] := by
            rw [hsends, settle_concat]
          refine ⟨fun _ => ?_, fun _ => nofun⟩
          refine .free (packet.take taken) rfl (not_holds_of_leave _ hthreads) ?_
            (Or.inr ⟨hclosed, ⟨packet, .raised⟩, ?_, List.take_prefix _ _, rfl⟩)
          · show s.channel = returnedPackets (settle .raised s.sends) ++ packet.take taken
            rw [hsettled, returnedPackets_concat, hchannel]
            simp
          · show _ ∈ settle .raised s.sends
            rw [hsettled]
            exact List.mem_append_right _ (List.mem_singleton.2 rfl)
      | false =>
          have hsettled : settle .returned s.sends = before ++ [⟨packet, .returned⟩] := by
            rw [hsends, settle_concat]
          have hreturned : returnedPackets (settle .returned s.sends) =
              returnedPackets before ++ packet := by
            rw [hsettled, returnedPackets_concat]
            simp
          refine ⟨fun hwhole => ?_, ?_⟩
          · obtain rfl : taken = packet.length := hwhole rfl
            refine .free [] rfl (not_holds_of_leave _ hthreads) ?_ (Or.inl rfl)
            show s.channel = returnedPackets (settle .returned s.sends) ++ []
            rw [hreturned, hchannel, List.take_length, List.append_nil]
          · rintro ⟨rest, hrest, -⟩ -
            change s.channel = returnedPackets (settle .returned s.sends) ++ rest at hrest
            -- a short write leaves the channel too short
            have hlength := congrArg List.length hrest
            rw [hreturned, hchannel] at hlength
            simp only [List.length_append, List.length_take] at hlength
            show taken = packet.length
            omega
  · cases hstep

/-- What a step of `send` needs in order to keep the channel right. -/
lemma SendInv.sendStep (h : SendInv s) (hstep : Host.sendStep s a = some t)
    (hwhole : ReturnsWhole s a) : SendInv t := by
  cases a with
  | call thread running type generation payload =>
      rw [Host.sendStep] at hstep
      split at hstep
      · cases hstep
      next hidle =>
      rw [not_not] at hidle
      split at hstep
      · cases hstep; exact h
      split at hstep
      · cases hstep; exact h
      · cases hstep; exact h.outside (by rw [hidle]; exact id) id
  | acquire thread =>
      rw [Host.sendStep] at hstep
      split at hstep
      · next packet hpc =>
          split at hstep
          · next hlock =>
              cases hstep
              cases h with
              | free rest _ hthreads hchannel hrest =>
                  refine .writing thread packet s.sends rest rfl (SendState.goOn_self _ _ _)
                    (fun u hu => ?_) rfl hchannel hrest
                  by_contra hne
                  rw [SendState.goOn_of_ne s _ hne] at hu
                  exact hthreads u hu
              | writing holder packet' before rest hlock' => rw [hlock] at hlock'; cases hlock'
              | flushing holder packet' taken before hlock' => rw [hlock] at hlock'; cases hlock'
          · cases hstep
      · cases hstep
  | write thread taken => exact h.write hstep
  | flush thread => exact (h.flush hstep).1 hwhole
  | close =>
      cases hstep
      cases h with
      | free rest hlock hthreads hchannel hrest =>
          exact .free rest hlock hthreads hchannel (hrest.mono (fun _ => rfl) (List.Subset.refl _))
      | writing holder packet before rest hlock hpc hthreads hsends hchannel hrest =>
          exact .writing holder packet before rest hlock hpc hthreads hsends hchannel
            (hrest.mono (fun _ => rfl) (List.Subset.refl _))
      | flushing holder packet taken before hlock hpc hthreads hsends hchannel htaken =>
          exact .flushing holder packet taken before hlock hpc hthreads hsends hchannel htaken

lemma SendInv.returnsWhole (h : SendInv s) (hstep : Host.sendStep s a = some t)
    (ht : WrittenWhole t) : ReturnsWhole s a := by
  cases a with
  | flush thread => exact (h.flush hstep).2 ht
  | _ => trivial

lemma sendInv_initial : SendInv .initial :=
  .free [] rfl (fun _ => id) rfl (Or.inl rfl)

/-- **Whole frames.** In every state of a run, the channel has the whole packets of the sends that
have returned, in the order in which they took the lock, and at most a part of one that has not,
exactly if no send of the run returns after a short write. -/
theorem writtenWhole_iff (as : List SendAction) (hrun : run sendStep .initial as = some s) :
    (∀ done u, done <+: as → run sendStep .initial done = some u → WrittenWhole u) ↔
      Along sendStep ReturnsWhole .initial as :=
  forall_prefix_iff_along_of (I := SendInv) (fun _ h => h.writtenWhole)
    (fun _ _ _ h hwhole ht => h.sendStep ht hwhole) (fun _ _ _ h ht hwritten =>
      h.returnsWhole ht hwritten) sendInv_initial hrun

/-- Two threads send one after the other, and the stream is closed after a third write. -/
def closedAfterWrite : List SendAction :=
  [.call 0 true .speak 1 [65], .call 1 true .cancel 1 [], .acquire 1, .write 1 (some 16), .flush 1,
    .acquire 0, .write 0 (some 17), .flush 0, .call 1 true .cancel 2 [], .acquire 1,
    .write 1 (some 7), .close, .flush 1]

theorem writtenWhole_closedAfterWrite : ∃ s, run sendStep .initial closedAfterWrite = some s ∧
    s.channel.length = 40 ∧ s.sends.map (·.outcome) = [.returned, .returned, .raised] ∧
      WrittenWhole s := by
  have hrun : (run sendStep .initial closedAfterWrite).map
      (fun s => (s.channel.length, s.sends.map (·.outcome))) =
        some (40, [.returned, .returned, .raised]) := by decide +kernel
  obtain ⟨s, hs, heq⟩ := Option.map_eq_some_iff.1 hrun
  refine ⟨s, hs, congrArg Prod.fst heq, congrArg Prod.snd heq, ?_⟩
  exact (writtenWhole_iff closedAfterWrite hs).2 (by decide +kernel) closedAfterWrite s
    List.prefix_rfl hs

/-- The write of a send takes one byte, and the send returns. -/
def shortWrite : List SendAction :=
  [.call 0 true .cancel 1 [], .acquire 0, .write 0 (some 1), .flush 0]

theorem not_writtenWhole_shortWrite :
    ¬ ∀ (as : List SendAction) (s : SendState), run sendStep .initial as = some s →
      WrittenWhole s := by
  intro h
  have hrun : (run sendStep .initial shortWrite).map
      (fun s => (s.channel.length, (returnedPackets s.sends).length)) = some (1, 16) := by
    decide +kernel
  obtain ⟨s, hs, heq⟩ := Option.map_eq_some_iff.1 hrun
  obtain ⟨rest, hrest, -⟩ := h shortWrite s hs
  have hlength := congrArg List.length hrest
  obtain ⟨hchannel, hreturned⟩ := Prod.mk.inj heq
  rw [List.length_append, hchannel, hreturned] at hlength
  omega

end SamsungTVVoices.Host
