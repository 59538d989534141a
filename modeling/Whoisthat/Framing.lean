import Mathlib.Data.Nat.Notation
import Whoisthat.Utf8

/-!
# Frames of the command connection

A message goes over the connection as its length in four bytes and its text. Both
sides read a frame in full out of however many reads the stream comes in. The
client refuses a text that no reader accepts, judging it by the length that its
four bytes would hold; the core writes whatever it is given.
-/

set_option autoImplicit false

namespace Whoisthat.Framing
open Whoisthat.Utf8 (Bytes)

section Source

/-- What the reads of a connection return; one that ends it returns nothing. -/
abbrev Reads := List Bytes

/-- `io.ReadFull` and `read_exact`: read until the buffer of `n` bytes is full. A read
takes no more bytes than there is room for. -/
def readFull (n : ℕ) : Reads → Option (Bytes × Reads)
  | [] => if n = 0 then some ([],[]) else none
  | seg::segs =>
    if n < seg.length then some (seg.take n,seg.drop n::segs)
    else (readFull (n-seg.length) segs).map fun (got,rest) => (seg ++ got,rest)

def maxFrameSize : ℕ := 64*1024*1024

/-- `binary.BigEndian.PutUint32` and `to_be_bytes` -/
def putUint32 (v : UInt32) : Bytes :=
  [UInt8.ofNat (v.toNat/2^24),UInt8.ofNat (v.toNat/2^16),UInt8.ofNat (v.toNat/2^8),
    UInt8.ofNat v.toNat]

/-- `binary.BigEndian.Uint32` and `from_be_bytes` -/
def uint32 (b : Bytes) : UInt32 := UInt32.ofNat (b.foldl (fun n c => 256*n+c.toNat) 0)

inductive Failure where
  | eof
  | invalidLength (length : UInt32)
  | invalidJSON
  deriving DecidableEq

variable {M : Type}

/-- What both sides do to read a message. -/
def readMessage (unmarshal : Bytes → Option M) (segs : Reads) : Except Failure (M × Reads) :=
  match readFull 4 segs with
  | none => .error .eof
  | some (lengthBuf,segs) =>
    let length := uint32 lengthBuf
    if length = 0 ∨ maxFrameSize < length.toNat then .error (.invalidLength length)
    else
      match readFull length.toNat segs with
      | none => .error .eof
      | some (payload,segs) =>
        match unmarshal payload with
        | none => .error .invalidJSON
        | some msg => .ok (msg,segs)

/-- The core's reader. -/
def readTCPMessage (unmarshal : Bytes → Option M) (segs : Reads) : Except Failure (M × Reads) :=
  readMessage unmarshal segs

/-- The client's reader. -/
def recv (fromSlice : Bytes → Option M) (segs : Reads) : Except Failure (M × Reads) :=
  readMessage fromSlice segs

/-- What `writeFrame` of the core puts on the connection. -/
def writeFrame (msg : Bytes) : Bytes := putUint32 (UInt32.ofNat msg.length) ++ msg

/-- What `send_frame` of the client puts on the connection, unless it refuses. -/
def sendFrame (json : Bytes) : Option Bytes :=
  let len := UInt32.ofNat json.length
  if len = 0 ∨ maxFrameSize < len.toNat then none else some (putUint32 len ++ json)

end Source

section Reading

variable {n : ℕ} {segs : Reads}

/-- However the stream is cut, a full read takes its first bytes and leaves the others. -/
theorem readFull_ok (h : n ≤ segs.flatten.length) :
    ∃ rest, readFull n segs = some (segs.flatten.take n,rest) ∧
      rest.flatten = segs.flatten.drop n := by
  induction segs generalizing n with
  | nil =>
    have hn : n = 0 := Nat.le_zero.mp h
    subst hn
    exact ⟨[],rfl,rfl⟩
  | cons seg segs ih =>
    rw [List.flatten_cons] at h ⊢
    rw [List.length_append] at h
    rw [readFull]
    by_cases hlt : n < seg.length
    · refine ⟨seg.drop n::segs,?_,?_⟩
      · rw [if_pos hlt,List.take_append_of_le_length hlt.le]
      · rw [List.flatten_cons,List.drop_append_of_le_length hlt.le]
    · obtain ⟨rest,hread,hrest⟩ := @ih (n-seg.length) (by omega)
      refine ⟨rest,?_,?_⟩
      · have htake : (seg ++ segs.flatten).take n = seg ++ segs.flatten.take (n-seg.length) := by
          rw [List.take_append,List.take_of_length_le (Nat.le_of_not_lt hlt)]
        rw [if_neg hlt,hread,htake]
        rfl
      · have hdrop : (seg ++ segs.flatten).drop n = segs.flatten.drop (n-seg.length) := by
          rw [List.drop_append,List.drop_eq_nil_of_le (Nat.le_of_not_lt hlt),List.nil_append]
        rw [hrest,hdrop]

theorem readFull_short (h : segs.flatten.length < n) : readFull n segs = none := by
  induction segs generalizing n with
  | nil =>
    have hn : n ≠ 0 := Nat.ne_of_gt h
    rw [readFull,if_neg hn]
  | cons seg segs ih =>
    rw [List.flatten_cons,List.length_append] at h
    rw [readFull,if_neg (by omega),ih (by omega)]
    rfl

/-- A full read of a stream that begins with what is asked for. -/
theorem readFull_append {front behind : Bytes} (h : segs.flatten = front ++ behind) :
    ∃ rest, readFull front.length segs = some (front,rest) ∧ rest.flatten = behind := by
  have hlength : front.length ≤ segs.flatten.length := by
    rw [h,List.length_append]
    omega
  obtain ⟨rest,hread,hrest⟩ := readFull_ok hlength
  rw [h,List.take_left] at hread
  rw [h,List.drop_left] at hrest
  exact ⟨rest,hread,hrest⟩

theorem readFull_shorter {got : Bytes} {rest : Reads} (h : readFull n segs = some (got,rest)) :
    rest.flatten.length+n = segs.flatten.length := by
  by_cases hn : n ≤ segs.flatten.length
  · obtain ⟨rest',hread,hrest⟩ := readFull_ok hn
    rw [hread] at h
    cases h
    rw [hrest,List.length_drop]
    omega
  · rw [readFull_short (by omega)] at h
    cases h

theorem putUint32_length (v : UInt32) : (putUint32 v).length = 4 := rfl

theorem uint32_put (v : UInt32) : uint32 (putUint32 v) = v := by
  have hv : v.toNat < 2^32 := v.toNat_lt
  apply UInt32.toNat_inj.mp
  rw [uint32,UInt32.toNat_ofNat',putUint32]
  simp only [List.foldl_cons,List.foldl_nil,UInt8.toNat_ofNat']
  omega

end Reading

section Messages

variable {M : Type} {unmarshal : Bytes → Option M} {segs : Reads}

theorem readMessage_shorter {msg : M} {rest : Reads}
    (h : readMessage unmarshal segs = .ok (msg,rest)) :
    rest.flatten.length < segs.flatten.length := by
  unfold readMessage at h
  split at h
  · cases h
  · next lengthBuf after hhead =>
    have hfour := readFull_shorter hhead
    simp only at h
    split at h
    · cases h
    · split at h
      · cases h
      · next payload behind hbody =>
        have hmore := readFull_shorter hbody
        split at h
        · cases h
        · cases h
          omega

/-- The read loop of a connection: its messages, and the error that ends it. -/
def received (unmarshal : Bytes → Option M) (segs : Reads) : List M × Failure :=
  match _h : readMessage unmarshal segs with
  | .error e => ([],e)
  | .ok (msg,rest) =>
    let more := received unmarshal rest
    (msg::more.1,more.2)
termination_by segs.flatten.length
decreasing_by exact readMessage_shorter ‹_›

theorem received_error {e : Failure} (h : readMessage unmarshal segs = .error e) :
    received unmarshal segs = ([],e) := by
  rw [received]
  split
  · next e' he =>
    cases h.symm.trans he
    rfl
  · next he => cases h.symm.trans he

theorem received_ok {msg : M} {rest : Reads} (h : readMessage unmarshal segs = .ok (msg,rest)) :
    received unmarshal segs =
      (msg::(received unmarshal rest).1,(received unmarshal rest).2) := by
  rw [received]
  split
  · next he => cases h.symm.trans he
  · next he =>
    cases h.symm.trans he
    rfl

/-- A length that a reader accepts. -/
def Framable (n : ℕ) : Prop := 0 < n ∧ n ≤ maxFrameSize

instance (n : ℕ) : Decidable (Framable n) := inferInstanceAs (Decidable (_ ∧ _))

theorem uint32_invalid (n : ℕ) :
    (UInt32.ofNat n = 0 ∨ maxFrameSize < (UInt32.ofNat n).toNat) ↔ ¬Framable (n % 2^32) := by
  rw [← UInt32.toNat_inj,UInt32.toNat_ofNat',Framable]
  show n % 2^32 = 0 ∨ _ ↔ _
  omega

theorem framable_uint32 {n : ℕ} (h : Framable n) :
    (UInt32.ofNat n).toNat = n ∧ ¬(UInt32.ofNat n = 0 ∨ maxFrameSize < (UInt32.ofNat n).toNat) := by
  have hmax : maxFrameSize < 2^32 := by decide
  have hmod : n % 2^32 = n := Nat.mod_eq_of_lt (Nat.lt_of_le_of_lt h.2 hmax)
  constructor
  · rw [UInt32.toNat_ofNat',hmod]
  · rw [uint32_invalid,hmod]
    exact fun hno => hno h

/-- A frame at the front of the stream is read as its message. -/
theorem readMessage_frame {payload behind : Bytes} {msg : M} (hlength : Framable payload.length)
    (hmsg : unmarshal payload = some msg)
    (h : segs.flatten = putUint32 (UInt32.ofNat payload.length) ++ payload ++ behind) :
    ∃ rest, readMessage unmarshal segs = .ok (msg,rest) ∧ rest.flatten = behind := by
  rw [List.append_assoc] at h
  obtain ⟨after,hhead,hafter⟩ := readFull_append h
  obtain ⟨rest,hbody,hrest⟩ := readFull_append hafter
  obtain ⟨hn,hvalid⟩ := framable_uint32 hlength
  refine ⟨rest,?_,hrest⟩
  rw [putUint32_length] at hhead
  rw [readMessage,hhead]
  show (if uint32 _ = 0 ∨ maxFrameSize < (uint32 _).toNat then _ else _) = _
  rw [uint32_put,if_neg hvalid,hn,hbody]
  show (match unmarshal payload with | none => _ | some msg => _) = _
  rw [hmsg]

/-- A length no reader accepts is an error, whatever stands behind it. -/
theorem readMessage_invalid {v : UInt32} {behind : Bytes} (hv : v = 0 ∨ maxFrameSize < v.toNat)
    (h : segs.flatten = putUint32 v ++ behind) :
    readMessage unmarshal segs = .error (.invalidLength v) := by
  obtain ⟨after,hhead,-⟩ := readFull_append h
  rw [putUint32_length] at hhead
  rw [readMessage,hhead]
  show (if uint32 _ = 0 ∨ maxFrameSize < (uint32 _).toNat then _ else _) = _
  rw [uint32_put,if_pos hv]

theorem readMessage_end (h : segs.flatten = []) : readMessage unmarshal segs = .error .eof := by
  rw [readMessage,readFull_short (by rw [h]; decide)]

end Messages

section Delivery

variable {M : Type}

/-- The JSON libraries of a writer and of the reader on the other side. -/
structure Wire (M : Type) where
  marshal : M → Bytes
  unmarshal : Bytes → Option M
  agree : ∀ msg, unmarshal (marshal msg) = some msg

inductive Peer where
  | core
  | client
  deriving DecidableEq

/-- What a side writes for a message, unless it refuses. -/
def Peer.write (w : Wire M) (msg : M) : Peer → Option Bytes
  | .core => some (writeFrame (w.marshal msg))
  | .client => sendFrame (w.marshal msg)

/-- What the other side reads. -/
def Peer.read (w : Wire M) (segs : Reads) : Peer → Except Failure (M × Reads)
  | .core => recv w.unmarshal segs
  | .client => readTCPMessage w.unmarshal segs

/-- The bytes a side puts on the connection for a sequence of messages. -/
def Peer.stream (w : Wire M) (ms : List M) (peer : Peer) : Bytes :=
  ms.flatMap fun msg => (peer.write w msg).getD []

/-- What the other side receives, and the error that ends the connection. -/
def Peer.receives (w : Wire M) (segs : Reads) : Peer → List M × Failure
  | .core => received w.unmarshal segs
  | .client => received w.unmarshal segs

/-- The messages that fit into a frame. -/
def framable (w : Wire M) (ms : List M) : List M :=
  ms.filter fun msg => Framable (w.marshal msg).length

/-- A message is refused or goes out with its length and is accepted, and of a sequence
the other side receives just these messages in order, however the stream is cut;
a length it does not accept ends the connection, whatever follows. -/
structure Delivered (w : Wire M) (peer : Peer) (ms : List M) : Prop where
  measured : ∀ msg ∈ ms, ∀ frame, peer.write w msg = some frame →
    ∃ v : UInt32, frame = putUint32 v ++ w.marshal msg ∧ v.toNat = (w.marshal msg).length
  accepted : ∀ msg ∈ ms, ∀ frame segs, peer.write w msg = some frame → segs.flatten = frame →
    ∃ rest, peer.read w segs = .ok (msg,rest) ∧ rest.flatten = []
  refused : ∀ msg ∈ ms, peer.write w msg = none ↔ ¬Framable (w.marshal msg).length
  ordered : ∀ segs, segs.flatten = peer.stream w ms → peer.receives w segs = (framable w ms,.eof)
  ended : ∀ segs v behind, v = 0 ∨ maxFrameSize < v.toNat →
    segs.flatten = peer.stream w ms ++ (putUint32 v ++ behind) →
    peer.receives w segs = (framable w ms,.invalidLength v)

/-- The lengths a writer deals with as the readers do. -/
def Fits (n : ℕ) : Peer → Prop
  | .core => Framable n
  | .client => 2^32 ≤ n → ¬Framable (n % 2^32)

theorem sendFrame_eq (json : Bytes) :
    sendFrame json = if Framable (json.length % 2^32) then
      some (putUint32 (UInt32.ofNat json.length) ++ json) else none := by
  unfold sendFrame
  by_cases h : Framable (json.length % 2^32)
  · rw [if_pos h]
    exact if_neg fun hinvalid => (uint32_invalid _).mp hinvalid h
  · rw [if_neg h]
    exact if_pos ((uint32_invalid _).mpr h)

/-- The frame of a message, where it fits into one. -/
def frameOf (payload : Bytes) : Option Bytes :=
  if Framable payload.length then
    some (putUint32 (UInt32.ofNat payload.length) ++ payload) else none

/-- A writer that frames what fits into a frame and refuses the rest. -/
theorem write_fits (w : Wire M) (peer : Peer) (msg : M)
    (h : Fits (w.marshal msg).length peer) : peer.write w msg = frameOf (w.marshal msg) := by
  cases peer with
  | core =>
    have hframable : Framable (w.marshal msg).length := h
    rw [frameOf,if_pos hframable]
    rfl
  | client =>
    show sendFrame (w.marshal msg) = _
    rw [sendFrame_eq,frameOf]
    by_cases hlarge : 2^32 ≤ (w.marshal msg).length
    · have hno : ¬Framable (w.marshal msg).length := fun hin =>
        absurd (Nat.le_trans hlarge hin.2) (by decide)
      rw [if_neg (h hlarge),if_neg hno]
    · rw [Nat.mod_eq_of_lt (Nat.lt_of_not_le hlarge)]

/-- A writer that refuses what does not fit deals with its length as the readers do. -/
theorem fits_of_refused (w : Wire M) (peer : Peer) (msg : M)
    (h : peer.write w msg = none ↔ ¬Framable (w.marshal msg).length) :
    Fits (w.marshal msg).length peer := by
  cases peer with
  | core =>
    show Framable (w.marshal msg).length
    by_contra hno
    cases h.mpr hno
  | client =>
    intro hlarge hmod
    have hno : ¬Framable (w.marshal msg).length := fun hin =>
      absurd (Nat.le_trans hlarge hin.2) (by decide)
    have hrefused : sendFrame (w.marshal msg) = none := h.mpr hno
    rw [sendFrame_eq,if_pos hmod] at hrefused
    cases hrefused

/-- The bytes of a sequence in which every message is framed or refused. -/
def frames (w : Wire M) (ms : List M) : Bytes :=
  ms.flatMap fun msg => (frameOf (w.marshal msg)).getD []

theorem framable_pos (w : Wire M) {msg : M} (ms : List M) (h : Framable (w.marshal msg).length) :
    framable w (msg::ms) = msg::framable w ms :=
  List.filter_cons_of_pos (decide_eq_true h)

theorem framable_neg (w : Wire M) {msg : M} (ms : List M) (h : ¬Framable (w.marshal msg).length) :
    framable w (msg::ms) = framable w ms :=
  List.filter_cons_of_neg fun hin => h (of_decide_eq_true hin)

theorem receives_eq (w : Wire M) (segs : Reads) (peer : Peer) :
    peer.receives w segs = received w.unmarshal segs := by
  cases peer <;> rfl

theorem read_eq (w : Wire M) (segs : Reads) (peer : Peer) :
    peer.read w segs = readMessage w.unmarshal segs := by
  cases peer <;> rfl

/-- Frame after frame is received, and then what the rest of the stream gives. -/
theorem received_frames (w : Wire M) (ms : List M) (segs : Reads) (behind : Bytes)
    (h : segs.flatten = frames w ms ++ behind) :
    ∃ rest : Reads, rest.flatten = behind ∧ received w.unmarshal segs =
      (framable w ms ++ (received w.unmarshal rest).1,(received w.unmarshal rest).2) := by
  induction ms generalizing segs with
  | nil => exact ⟨segs,h,rfl⟩
  | cons msg ms ih =>
    rw [frames,List.flatMap_cons,List.append_assoc] at h
    by_cases hfits : Framable (w.marshal msg).length
    · rw [frameOf,if_pos hfits,Option.getD_some] at h
      obtain ⟨after,hread,hafter⟩ := readMessage_frame hfits (w.agree msg) h
      obtain ⟨rest,hrest,hmore⟩ := ih after hafter
      refine ⟨rest,hrest,?_⟩
      rw [received_ok hread,hmore,framable_pos w ms hfits]
      rfl
    · rw [frameOf,if_neg hfits,Option.getD_none,List.nil_append] at h
      obtain ⟨rest,hrest,hmore⟩ := ih segs h
      refine ⟨rest,hrest,?_⟩
      rw [hmore,framable_neg w ms hfits]

/-- Both directions carry every sequence whose lengths the writer deals with as the
readers do. -/
theorem delivered_of_fits (w : Wire M) (peer : Peer) (ms : List M)
    (h : ∀ msg ∈ ms, Fits (w.marshal msg).length peer) : Delivered w peer ms := by
  have hwrite : ∀ msg ∈ ms, peer.write w msg = frameOf (w.marshal msg) := fun msg hm =>
    write_fits w peer msg (h msg hm)
  have hstream : peer.stream w ms = frames w ms :=
    List.flatMap_congr fun msg hm => by rw [hwrite msg hm]
  have hframe : ∀ msg ∈ ms, ∀ frame, peer.write w msg = some frame →
      Framable (w.marshal msg).length ∧
        frame = putUint32 (UInt32.ofNat (w.marshal msg).length) ++ w.marshal msg := by
    intro msg hm frame hf
    rw [hwrite msg hm,frameOf] at hf
    split at hf
    · next hfits =>
      cases hf
      exact ⟨hfits,rfl⟩
    · cases hf
  constructor
  · intro msg hm frame hf
    obtain ⟨hfits,rfl⟩ := hframe msg hm frame hf
    exact ⟨_,rfl,(framable_uint32 hfits).1⟩
  · intro msg hm frame segs hf hsegs
    obtain ⟨hfits,rfl⟩ := hframe msg hm frame hf
    rw [read_eq]
    exact readMessage_frame hfits (w.agree msg) (hsegs.trans (List.append_nil _).symm)
  · intro msg hm
    rw [hwrite msg hm,frameOf]
    split
    · next hfits => exact iff_of_false nofun fun hno => hno hfits
    · next hno => exact iff_of_true rfl hno
  · intro segs hsegs
    rw [hstream] at hsegs
    obtain ⟨rest,hrest,hmore⟩ := received_frames w ms segs [] (hsegs.trans (List.append_nil _).symm)
    rw [receives_eq,hmore,received_error (readMessage_end hrest),List.append_nil]
  · intro segs v behind hv hsegs
    rw [hstream] at hsegs
    obtain ⟨rest,hrest,hmore⟩ := received_frames w ms segs _ hsegs
    rw [receives_eq,hmore,received_error (readMessage_invalid hv hrest),List.append_nil]

/-- A sequence is carried just when the writer deals with the length of every message
as the readers do: the core with those that fit into a frame, the client with all but
those that fit once their length is cut to 32 bits. -/
theorem delivered_iff (w : Wire M) (peer : Peer) (ms : List M) :
    Delivered w peer ms ↔ ∀ msg ∈ ms, Fits (w.marshal msg).length peer :=
  ⟨fun h msg hm => fits_of_refused w peer msg (h.refused msg hm),delivered_of_fits w peer ms⟩

def letters (s : String) : Bytes := s.toList.map fun c => UInt8.ofNat c.toNat

/-- A warning of `n` letters. -/
def warning (n : ℕ) : Bytes :=
  letters "\x7b\"msg\":\"warn\",\"data\":\"" ++ (List.replicate n 0x61 ++ letters "\"\x7d")

theorem warning_length (n : ℕ) : (warning n).length = n+24 := by
  have hfront : (letters "\x7b\"msg\":\"warn\",\"data\":\"").length = 22 := by decide
  have hbehind : (letters "\"\x7d").length = 2 := by decide
  rw [warning,List.length_append,List.length_append,List.length_replicate,hfront,hbehind]
  omega

def warnings : Wire ℕ where
  marshal := warning
  unmarshal p := some (p.length-24)
  agree n := by rw [warning_length,Nat.add_sub_cancel]

/-- The core sends a text longer than a frame, which the client refuses; of a text of
4 GiB and more the client sends a length that is not its own. -/
theorem long_messages_lost :
    ¬Delivered warnings .core [maxFrameSize] ∧ ¬Delivered warnings .client [2^32] := by
  constructor
  · intro h
    have hno : ¬Framable (warnings.marshal maxFrameSize).length := fun hfits => by
      have hlength : (warnings.marshal maxFrameSize).length = maxFrameSize+24 := warning_length _
      have hmax := hfits.2
      omega
    cases (h.refused maxFrameSize List.mem_cons_self).mpr hno
  · intro h
    have hlength : (warnings.marshal (2^32)).length = 2^32+24 := warning_length _
    have hfits : Fits (warnings.marshal (2^32)).length .client :=
      fits_of_refused warnings .client _ (h.refused _ List.mem_cons_self)
    rw [hlength] at hfits
    exact hfits (by omega) (by decide)

end Delivery

end Whoisthat.Framing
