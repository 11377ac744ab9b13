/-
# The sample server on one connection

`example/testserver.cc`: `EchoServer::onMessage` takes everything out of `inputBuffer_`,
sends it back and shuts the connection down.  Here a connection of this server runs on
its loop's thread, from `TcpConnection::handleRead` on the storage of `inputBuffer_` to
`::write` and `handleWrite` on the storage of `outputBuffer_`.

`shutdown` leaves the state `kConnected`, so the server answers the first message only;
`reply` reads it off the events.  What it answers is complete: the bytes handed to the
kernel and the ones still buffered are the message, and the write side is closed when
all of it has been handed over, and only then (`echoes`).

The storages are a different matter.  Each message leaves `inputBuffer_` empty, with as
much room as the longest message had so far.  A message that is longer by `1` to
`kCheapPrepend` bytes is written past the end, and so is a rest of the first message of
`kInitialSize` and as many bytes over; no other run leaves a storage
(`stays_inside_iff`).
-/

import MuMuduo.Buffer.Growth
import MuMuduo.Connection.HalfClose
import MuMuduo.Connection.Inbox
import MuMuduo.Connection.Storage

namespace MuMuduo

open Foundation

/-- A connection of `EchoServer`. -/
structure EchoConnection where
  out : Stored
  inputBuffer_ : Buffer

namespace EchoConnection

/-- What a poll on the connection's channel leads to, with the answers of the kernel. -/
inductive Event
  | handleRead (r : Buffer.ReadvResult) (w : WriteResult)
  | handleWrite (w : WriteResult)
  | handleClose
  | connectDestroyed

/-- A connection that has been established.  The server sets neither a write-complete
nor a high-water-mark callback. -/
def established (sockfd : ℤ) : EchoConnection where
  out := Stored.ofFd sockfd (64 * 1024 * 1024) false false
  inputBuffer_ := Buffer.ofSize Buffer.kInitialSize

/-- A call on the output side. -/
def call (e : EchoConnection) (op : TcpConnection.Op) : Option EchoConnection :=
  (e.out.step op).map fun out => { e with out := out }

/-- `TcpConnection::send`, on the loop's own thread; `isInLoopThread()` is read as the
comparison its body makes. -/
def send (e : EchoConnection) (msg : List UInt8) (w : WriteResult) : Option EchoConnection :=
  if e.out.conn.state_ = .kConnected then e.call (.sendInLoop msg w) else some e

/-- `EchoServer::onMessage`. -/
def onMessage (e : EchoConnection) (w : WriteResult) : Option EchoConnection :=
  e.inputBuffer_.retrieveAllAsString.bind fun (msg, buf) =>
    (send { e with inputBuffer_ := buf } msg w).bind fun e => e.call .shutdown

/-- One event; `none` if it touches a byte outside the storage of a buffer. -/
def step (e : EchoConnection) : Event → Option EchoConnection
  | .handleRead r w =>
      (e.inputBuffer_.readFd r).bind fun (buf, n, _) =>
        if 0 < n then onMessage { e with inputBuffer_ := buf } w
        else if n = 0 then call { e with inputBuffer_ := buf } .handleClose
        else some { e with inputBuffer_ := buf }
  | .handleWrite w => e.call (.handleWrite w)
  | .handleClose => e.call .handleClose
  | .connectDestroyed => e.call .connectDestroyed

/-- `readv` delivers what its blocks can hold. -/
def Pre (e : EchoConnection) : Event → Prop
  | .handleRead r _ => e.inputBuffer_.Deliverable r
  | _ => True

/-- The indices of both buffers are in their storages, and `outputBuffer_` holds the
queue of the connection. -/
def Inside (e : EchoConnection) : Prop := e.inputBuffer_.Valid ∧ e.out.Agrees

/-! ### What the events say -/

/-- The bytes that arrive. -/
def Event.message : Event → List UInt8
  | .handleRead (.delivered bs) _ => bs
  | _ => []

/-- An event that leaves a connected connection as it is. -/
def Event.quiet : Event → Bool
  | .handleRead (.failed _) _ => true
  | .handleWrite _ => true
  | _ => false

/-- The longest message so far, or the initial size. -/
def longest (as : List Event) : ℕ :=
  as.foldl (fun m a => max m a.message.length) Buffer.kInitialSize

/-- What the direct write leaves over, which is dropped if the peer is gone. -/
def leftover (msg : List UInt8) (w : WriteResult) : ℕ :=
  if w.fault then 0 else msg.length - w.count

/-- `n` is not one of the `kCheapPrepend` lengths next to `m`. -/
def Clear (m n : ℕ) : Prop := n ≤ m ∨ m + Buffer.kCheapPrepend < n

instance (m n : ℕ) : Decidable (Clear m n) := inferInstanceAs (Decidable (_ ∨ _))

/-- The lengths that the buffers judge right, after the events `as`. -/
def Fits (as : List Event) : Event → Prop
  | .handleRead (.delivered bs) w => Clear (longest as) bs.length ∧
      (as.all Event.quiet = true → Clear Buffer.kInitialSize (leftover bs w))
  | _ => True

/-- What the server answers: the first message, unless the connection is closed before it
arrives or the peer is gone. -/
def reply : List Event → List UInt8
  | [] => []
  | .handleRead (.delivered bs) w :: _ => if w.fault then [] else bs
  | .handleRead (.failed _) _ :: as => reply as
  | .handleWrite _ :: as => reply as
  | .handleClose :: _ => []
  | .connectDestroyed :: _ => []

/-- The longest message with one event more. -/
theorem longest_concat (as : List Event) (a : Event) :
    longest (as ++ [a]) = max (longest as) a.message.length := by
  rw [longest, List.foldl_append]
  rfl

/-- The first event that is not quiet decides. -/
theorem reply_concat (as : List Event) (a : Event) :
    reply (as ++ [a]) = if as.all Event.quiet = true then reply [a] else reply as := by
  induction as with
  | nil => rfl
  | cons b as ih =>
      rw [List.cons_append, List.all_cons]
      cases b with
      | handleRead r w =>
          cases r with
          | delivered bs => rfl
          | failed errno => exact ih
      | handleWrite w => exact ih
      | handleClose => rfl
      | connectDestroyed => rfl

/-! ### `inputBuffer_` between the events -/

/-- All is consumed, and there is room for `m` bytes. -/
structure Drained (m : ℕ) (b : Buffer) : Prop where
  valid : b.Valid
  reader_eq : b.readerIndex_ = Buffer.kCheapPrepend
  writer_eq : b.writerIndex_ = Buffer.kCheapPrepend
  length_eq : b.buffer_.length = Buffer.kCheapPrepend + m
  lt : m < 2 * Buffer.extrabufSize

/-- A new buffer is as if drained. -/
theorem drained_ofSize : Drained Buffer.kInitialSize (Buffer.ofSize Buffer.kInitialSize) where
  valid := (Buffer.valid_ofSize_iff (by decide)).2 (by decide)
  reader_eq := rfl
  writer_eq := rfl
  length_eq := Buffer.length_ofSize (by decide)
  lt := by decide

section Drained

variable {m : ℕ} {b : Buffer} {bs : List UInt8}

/-- A drained buffer has its whole size to write into. -/
theorem Drained.writerBytes_eq (h : Drained m b) : b.writerBytes = m := by
  rw [h.valid.writerBytes_eq, h.length_eq, h.writer_eq, Nat.add_sub_cancel_left]

/-- It holds nothing. -/
theorem Drained.readable_eq (h : Drained m b) : b.readable = [] := by
  rw [Buffer.readable, h.reader_eq, h.writer_eq, Nat.sub_self, List.take_zero]

/-- `readv` never delivers more than two blocks of `extrabuf` could hold. -/
theorem Drained.length_lt (h : Drained m b) (hd : b.Deliverable (.delivered bs)) :
    bs.length < 2 * Buffer.extrabufSize := by
  have hm := h.lt
  by_cases hn : bs.length ≤ b.writerBytes
  · rw [h.writerBytes_eq] at hn
    omega
  · obtain ⟨htail, hle⟩ := hd.spill hn
    omega

/-- What a read may bring into it depends on the number of bytes alone. -/
theorem Drained.readFits_iff (h : Drained m b) (hd : b.Deliverable (.delivered bs)) :
    b.ReadFits (.delivered bs) ↔ Clear m bs.length := by
  have hw := h.writerBytes_eq
  have hr := h.reader_eq
  have hl := h.length_eq
  have hm := h.lt
  have hlt := h.length_lt hd
  have hk : Buffer.kCheapPrepend = 8 := rfl
  have hx : Buffer.extrabufSize = 65536 := rfl
  rw [Buffer.ReadFits, and_iff_right h.valid.writer_le, hw, Buffer.SpillFits, Clear]
  omega

/-- A message of a clear length is read and leaves the buffer drained, with room for
it. -/
theorem Drained.readFd (h : Drained m b) (hd : b.Deliverable (.delivered bs))
    (hclear : Clear m bs.length) :
    ∃ b', b.readFd (.delivered bs) = some (b', (bs.length : ℤ), none) ∧
      b'.retrieveAllAsString = some (bs, b'.retrieveAll) ∧
      Drained (max m bs.length) b'.retrieveAll := by
  have hfits := (h.readFits_iff hd).2 hclear
  obtain ⟨⟨b', n, e⟩, hb', hb'v, hread⟩ := (h.valid.readFd_iff hd).2 hfits
  obtain ⟨rfl, rfl⟩ := Prod.mk.inj (Buffer.result_of_readFd hb')
  have hlen := Buffer.length_of_readFd h.valid hd hfits hb'
  rw [h.reader_eq, h.writerBytes_eq, h.length_eq] at hlen
  have hall : b'.retrieve b'.readableBytes = b'.retrieveAll := if_neg (Nat.lt_irrefl _)
  refine ⟨b', hb', ?_, Buffer.valid_retrieveAll hb'v, rfl, rfl, ?_, ?_⟩
  · rw [Buffer.retrieveAllAsString_spec hb'v, hread, h.readable_eq, List.nil_append, hall]
  · show b'.buffer_.length = _
    rw [hlen]
    unfold Clear at hclear
    split_ifs <;> omega
  · have hm := h.lt
    have hlt := h.length_lt hd
    omega

/-- Any other message is written past the end of the storage. -/
theorem Drained.readFd_eq_none (h : Drained m b) (hd : b.Deliverable (.delivered bs))
    (hclear : ¬Clear m bs.length) : b.readFd (.delivered bs) = none := by
  have hn : ¬bs.length ≤ b.writerBytes := by
    rw [h.writerBytes_eq]
    exact fun hle => hclear (.inl hle)
  obtain ⟨c, hv, hcw, hcr, hci, hcs, -, hread⟩ := h.valid.readFd_spill hd hn
  have hcp : c.prependableBytes = Buffer.kCheapPrepend := hcr.trans h.reader_eq
  have hlen : (bs.drop b.writerBytes).length = bs.length - m := by
    rw [List.length_drop, h.writerBytes_eq]
  have hk : Buffer.kCheapPrepend = 8 := rfl
  unfold Clear at hclear
  rw [hread, Buffer.append_eq_none hv (by omega) (by unfold Buffer.Fits; omega), Option.map_none]

/-- The end of the peer's stream. -/
theorem Drained.readFd_nil (h : Drained m b) :
    b.readFd (.delivered []) = some (b, 0, none) := by
  have hlt : b.writerIndex_ + 0 < 2 ^ 64 := Nat.lt_of_le_of_lt h.valid.writer_le h.valid.size_lt
  simp only [Buffer.readFd, Buffer.readv, List.take_nil, List.drop_nil, copyIn, Option.bind_some,
    Option.map_some, List.length_nil, Nat.zero_le, if_true, SizeT.add_eq hlt]
  rfl

end Drained

end EchoConnection

/-! ### The output side after the first message -/

namespace TcpConnection

/-- A connection that answers with `bytes` and takes no further message. -/
structure Replies (bytes : List UInt8) (c : TcpConnection) : Prop where
  closes : c.Closes bytes
  state : c.state_ ≠ .kConnected

variable {c c' : TcpConnection} {bytes : List UInt8} {op : Op}

/-- No call but `sendInLoop` changes what is answered. -/
theorem Replies.step (h : c.Replies bytes) (hop : ∀ data r, op ≠ .sendInLoop data r)
    (hc : c.step op = some c') : c'.Replies bytes := by
  refine ⟨?_, state_ne_of_step (by rintro ⟨⟩) (by rintro ⟨⟩) h.state hc⟩
  cases op with
  | sendInLoop data r => exact absurd rfl (hop data r)
  | shutdown | handleWrite | handleClose | connectDestroyed =>
      refine h.closes.step ?_ hc
      trivial

/-- A connected connection that has answered nothing and is idle answers `data`, unless
the peer is gone. -/
theorem Closes.replies_first (h : c.Closes []) (hs : c.state_ = .kConnected)
    (hw : c.isWriting = false) (data : List UInt8) (r : WriteResult) :
    (c.sendInLoop data r).1.shutdown.Replies (if r.fault = true then [] else data) := by
  have hdirect : c.direct = true := by rw [direct, hw, Bool.not_false, Bool.true_or]
  have hne : c.state_ ≠ .kDisconnected := by rw [hs]; decide
  have howed : c.owed [] (.sendInLoop data r) = if r.fault = true then [] else data := by
    rw [owed, hdirect, Bool.true_and, List.nil_append]
    exact if_congr (or_iff_right hne) rfl rfl
  have hsend := (h.sendInLoop hne (fun hd => by rw [hs] at hd; cases hd.1) :
    (c.sendInLoop data r).1.Closes (c.owed [] (.sendInLoop data r))).shutdown
  rw [howed] at hsend
  refine ⟨hsend, ?_⟩
  rw [TcpConnection.shutdown, sendInLoop_state_, if_pos hs, shutdownInLoop_state_]
  exact fun h => by cases h

end TcpConnection

namespace Stored

variable {s s' : Stored} {op : TcpConnection.Op}

/-- Only `sendInLoop` puts anything into the storage. -/
theorem exists_step (h : s.Agrees) (hop : ∀ data r, op ≠ .sendInLoop data r) :
    ∃ s', s.step op = some s' ∧ s'.Agrees := by
  have hbuf : ∀ a ∈ s.conn.bufferOp op, ∃ len, a = .retrieve len := by
    intro a ha
    cases op with
    | sendInLoop data r => exact absurd rfl (hop data r)
    | handleWrite r =>
        obtain ⟨-, ha⟩ := Option.ite_none_right_eq_some.1 ha
        exact ⟨_, (Option.some.inj ha).symm⟩
    | shutdown | handleClose | connectDestroyed => cases ha
  refine (step_iff h fun a ha => ?_).2 fun a ha => ?_
  · obtain ⟨len, rfl⟩ := hbuf a ha
    trivial
  · obtain ⟨len, rfl⟩ := hbuf a ha
    trivial

/-- `shutdown` leaves the storage alone. -/
theorem agrees_shutdown (hs : s.step .shutdown = some s') : s'.Agrees ↔ s.Agrees := by
  obtain ⟨c, hc, hrest⟩ := Option.bind_eq_some_iff.1 hs
  obtain rfl := Option.some.inj hrest
  rw [Agrees, tracked, TcpConnection.outputBuffer_of_none hc rfl]
  exact Iff.rfl

end Stored

/-! ### Runs -/

namespace EchoConnection

variable {sockfd : ℤ} {as : List Event} {e e' : EchoConnection} {a : Event}

/-- Once established, the connection is connected and has nothing to write. -/
theorem established_quiet (sockfd : ℤ) :
    (established sockfd).out.conn.Closes [] ∧ (established sockfd).out.conn.state_ = .kConnected ∧
      (established sockfd).out.conn.isWriting = false :=
  ⟨TcpConnection.closes_established _ _ _ _, rfl,
    (TcpConnection.isWriting_enableReading _).trans (by
      simp [TcpConnection.ofFd, TcpConnection.isWriting, Channel.isWriting, Channel.ofFd,
        TcpConnection.setState])⟩

/-- The first answer fits into `outputBuffer_` if the rest has a clear length. -/
theorem fits_established (sockfd : ℤ) (msg : List UInt8) (w : WriteResult) :
    (established sockfd).out.Fits (.sendInLoop msg w) ↔
      Clear Buffer.kInitialSize (leftover msg w) := by
  obtain ⟨-, hs, hw⟩ := established_quiet sockfd
  have hdirect : (established sockfd).out.conn.direct = true := by
    rw [TcpConnection.direct, hw, Bool.not_false, Bool.true_or]
  have hop : (established sockfd).out.conn.bufferOp (.sendInLoop msg w) =
      if 0 < leftover msg w then some (.append (msg.drop w.count)) else none := by
    rw [TcpConnection.bufferOp, hs, hdirect, TcpConnection.nwrote, if_pos hdirect, leftover]
    cases w.fault <;> simp
  have hbuf : (Buffer.ofSize Buffer.kInitialSize).Fits (leftover msg w) ↔
      Clear Buffer.kInitialSize (leftover msg w) := by
    rw [Buffer.Fits, drained_ofSize.writerBytes_eq, Clear, Buffer.prependableBytes,
      drained_ofSize.reader_eq]
    omega
  rw [Stored.Fits, hop]
  split_ifs with hpos
  · have hlen : (msg.drop w.count).length = leftover msg w := by
      by_cases hf : w.fault = true
      · rw [leftover, if_pos hf] at hpos
        omega
      · rw [List.length_drop, leftover, if_neg hf]
    simp only [Option.mem_def, Option.some.injEq, forall_eq']
    rw [← hbuf, ← hlen]
    exact Iff.rfl
  · refine iff_of_true (fun _ h => by cases h) (.inl ?_)
    omega

/-- What the state says of the events that have led to it. -/
structure Follows (sockfd : ℤ) (as : List Event) (e : EchoConnection) : Prop where
  input : Drained (longest as) e.inputBuffer_
  stored : e.out.Agrees
  quiet : as.all Event.quiet = true → e.out = (established sockfd).out
  answers : as.all Event.quiet = false → e.out.conn.Replies (reply as)

/-- Before the first event. -/
theorem follows_established (sockfd : ℤ) : Follows sockfd [] (established sockfd) where
  input := drained_ofSize
  stored := Stored.agrees_ofFd ..
  quiet _ := rfl
  answers h := by cases h

/-- Where the connection follows its events it has touched no byte outside of its buffers. -/
theorem Follows.inside (h : Follows sockfd as e) : e.Inside := ⟨h.input.valid, h.stored⟩

/-- A call that is not `sendInLoop`. -/
theorem Follows.call (h : Follows sockfd as e) (op : TcpConnection.Op) (buf : Buffer)
    (hop : ∀ data r, op ≠ .sendInLoop data r) :
    ∃ out, e.out.step op = some out ∧ out.Agrees ∧
      EchoConnection.call { e with inputBuffer_ := buf } op = some ⟨out, buf⟩ := by
  obtain ⟨out, hout, hag⟩ := Stored.exists_step h.stored hop
  exact ⟨out, hout, hag, by rw [EchoConnection.call, hout, Option.map_some]⟩

/-- What is answered is settled when the connection is closed. -/
theorem Follows.replies_close (h : Follows sockfd as e) {op : TcpConnection.Op} {out : Stored}
    (hop : op = .handleClose ∨ op = .connectDestroyed) (hout : e.out.step op = some out) :
    out.conn.Replies (if as.all Event.quiet = true then [] else reply as) := by
  have hc := Stored.conn_of_step hout
  split_ifs with hq
  · rw [h.quiet hq] at hc
    have hcloses := (established_quiet sockfd).1
    have hs := (established_quiet sockfd).2.1
    rcases hop with rfl | rfl
    · refine ⟨hcloses.step (by trivial) hc, ?_⟩
      rw [← Option.some.inj hc]
      exact fun h => by cases h
    · refine ⟨hcloses.step (by trivial) hc, ?_⟩
      rw [← Option.some.inj hc, TcpConnection.connectDestroyed, if_pos hs]
      exact fun h => by cases h
  · refine (h.answers (by simpa using hq)).step (fun data r he => ?_) hc
    rcases hop with rfl | rfl <;> cases he

/-- A close, by whatever event. -/
theorem Follows.close (h : Follows sockfd as e) {op : TcpConnection.Op} {out : Stored}
    (hop : op = .handleClose ∨ op = .connectDestroyed) (hout : e.out.step op = some out)
    (hag : out.Agrees) (ha : a.quiet = false) (hreply : reply [a] = [])
    (hmsg : a.message = []) : Follows sockfd (as ++ [a]) ⟨out, e.inputBuffer_⟩ where
  input := by
    rw [longest_concat, hmsg, List.length_nil, Nat.max_eq_left (Nat.zero_le _)]
    exact h.input
  stored := hag
  quiet hq := by simp [ha] at hq
  answers _ := by
    rw [reply_concat, hreply]
    exact h.replies_close hop hout

/-- `onMessage` with what the buffer held: a `send` and a `shutdown`. -/
theorem onMessage_eq {b b' : Buffer} {bs : List UInt8} (hb : b.retrieveAllAsString = some (bs, b'))
    (w : WriteResult) :
    onMessage { e with inputBuffer_ := b } w =
      (send { e with inputBuffer_ := b' } bs w).bind fun e => e.call .shutdown := by
  rw [onMessage, hb]
  rfl

/-- **A message** is answered if it is the first. -/
theorem Follows.onMessage_iff (h : Follows sockfd as e) {b : Buffer} {bs : List UInt8}
    (hb : b.retrieveAllAsString = some (bs, b.retrieveAll))
    (hin : Drained (max (longest as) bs.length) b.retrieveAll) (w : WriteResult) :
    (∃ e', onMessage { e with inputBuffer_ := b } w = some e' ∧ e'.Inside) ↔
      (as.all Event.quiet = true → Clear Buffer.kInitialSize (leftover bs w)) := by
  rw [onMessage_eq hb, send]
  by_cases hq : as.all Event.quiet = true
  · have hstate : e.out.conn.state_ = .kConnected := by
      rw [h.quiet hq]
      exact (established_quiet sockfd).2.1
    have hpre : e.out.Pre (.sendInLoop bs w) := by
      intro a ha
      have hlt := hin.lt
      obtain ⟨-, ha⟩ := Option.ite_none_right_eq_some.1 ha
      obtain rfl := Option.some.inj ha
      show e.out.buf.writerIndex_ + _ < 2 ^ 64
      rw [h.quiet hq, List.length_drop, show (established sockfd).out.buf.writerIndex_ =
        Buffer.kCheapPrepend from rfl]
      unfold Buffer.kCheapPrepend Buffer.extrabufSize at *
      omega
    have hiff := Stored.step_iff h.stored hpre
    rw [h.quiet hq, fits_established, ← h.quiet hq] at hiff
    rw [if_pos hstate, EchoConnection.call, ← hiff, forall_prop_of_true hq]
    constructor
    · rintro ⟨e', he', -, hag⟩
      obtain ⟨e₁, he₁, he'⟩ := Option.bind_eq_some_iff.1 he'
      obtain ⟨out₁, hout₁, rfl⟩ := Option.map_eq_some_iff.1 he₁
      obtain ⟨out₂, hout₂, rfl⟩ := Option.map_eq_some_iff.1 he'
      exact ⟨out₁, hout₁, (Stored.agrees_shutdown hout₂).1 hag⟩
    · rintro ⟨out₁, hout₁, hag⟩
      obtain ⟨out₂, hout₂, hag₂⟩ := @Stored.exists_step out₁ .shutdown hag fun _ _ he => by cases he
      refine ⟨⟨out₂, b.retrieveAll⟩, ?_, hin.valid, hag₂⟩
      rw [hout₁, Option.map_some, Option.bind_some, EchoConnection.call, hout₂, Option.map_some]
  · have hreplies := h.answers (by simpa using hq)
    have hne := hreplies.state
    obtain ⟨out, hout, hag, hcall⟩ := h.call .shutdown b.retrieveAll fun _ _ he => by cases he
    refine iff_of_true ⟨⟨out, b.retrieveAll⟩, ?_, hin.valid, hag⟩ fun hq' => absurd hq' hq
    rw [if_neg hne, Option.bind_some, hcall]

/-- What the connection answers from now on. -/
theorem Follows.onMessage (h : Follows sockfd as e) {b : Buffer} {bs : List UInt8}
    (hb : b.retrieveAllAsString = some (bs, b.retrieveAll))
    (hin : Drained (max (longest as) bs.length) b.retrieveAll) {w : WriteResult}
    (he : EchoConnection.onMessage { e with inputBuffer_ := b } w = some e') (hag : e'.Inside) :
    Follows sockfd (as ++ [.handleRead (.delivered bs) w]) e' := by
  rw [onMessage_eq hb, send] at he
  obtain ⟨e₁, he₁, he⟩ := Option.bind_eq_some_iff.1 he
  obtain ⟨out, hout, rfl⟩ := Option.map_eq_some_iff.1 he
  have hc := Stored.conn_of_step hout
  have hquiet : (as ++ [Event.handleRead (.delivered bs) w]).all Event.quiet = false := by
    simp [Event.quiet]
  by_cases hq : as.all Event.quiet = true
  · have hstate : e.out.conn.state_ = .kConnected := by
      rw [h.quiet hq]
      exact (established_quiet sockfd).2.1
    rw [if_pos hstate] at he₁
    obtain ⟨out₁, hout₁, rfl⟩ := Option.map_eq_some_iff.1 he₁
    have hc₁ := Option.some.inj (Stored.conn_of_step hout₁)
    rw [if_neg (by rw [hstate]; decide), h.quiet hq] at hc₁
    obtain ⟨hcloses, hs, hw⟩ := established_quiet sockfd
    refine ⟨by rw [longest_concat]; exact hin, hag.2, fun hq' => ?_, fun _ => ?_⟩
    · rw [hquiet] at hq'
      cases hq'
    · rw [reply_concat, if_pos hq, ← Option.some.inj hc, ← hc₁]
      exact hcloses.replies_first hs hw bs w
  · have hreplies := h.answers (by simpa using hq)
    rw [if_neg hreplies.state] at he₁
    obtain rfl := Option.some.inj he₁
    refine ⟨by rw [longest_concat]; exact hin, hag.2, fun hq' => ?_, fun _ => ?_⟩
    · rw [hquiet] at hq'
      cases hq'
    · rw [reply_concat, if_neg hq]
      exact hreplies.step (fun _ _ he => by cases he) hc

/-- A quiet event leaves a connected connection as it is, and any other one to its
answer. -/
theorem Follows.concat_quiet (h : Follows sockfd as e) (ha : a.quiet = true) {out : Stored}
    (hag : out.Agrees) (hout : as.all Event.quiet = true → out = (established sockfd).out)
    (hanswers : as.all Event.quiet = false → out.conn.Replies (reply as)) :
    Follows sockfd (as ++ [a]) ⟨out, e.inputBuffer_⟩ := by
  have hall : (as ++ [a]).all Event.quiet = as.all Event.quiet := by simp [ha]
  have hmsg : a.message = [] := by
    cases a with
    | handleRead r w =>
        cases r with
        | delivered bs => cases ha
        | failed errno => rfl
    | handleWrite w | handleClose | connectDestroyed => rfl
  refine ⟨?_, hag, fun hq => hout (hall ▸ hq), fun hq => ?_⟩
  · rw [longest_concat, hmsg, List.length_nil, Nat.max_eq_left (Nat.zero_le _)]
    exact h.input
  · rw [hall] at hq
    rw [reply_concat, if_neg (by rw [hq]; exact Bool.false_ne_true)]
    exact hanswers hq

/-- An idle channel has nothing to write. -/
theorem step_handleWrite_established {w : WriteResult} {out : Stored}
    (hout : (established sockfd).out.step (.handleWrite w) = some out) :
    out = (established sockfd).out := by
  obtain ⟨-, -, hw⟩ := established_quiet sockfd
  have hsame : (established sockfd).out.conn.handleWriteAll w = (established sockfd).out.conn := by
    have hwrite : (established sockfd).out.conn.handleWrite w =
        ((established sockfd).out.conn, false) := by
      rw [TcpConnection.handleWrite, hw]
      exact if_neg Bool.false_ne_true
    rw [TcpConnection.handleWriteAll, hwrite]
    exact if_neg fun hd => Bool.false_ne_true hd.1
  have hop : (established sockfd).out.conn.bufferOp (.handleWrite w) = none := by
    rw [TcpConnection.bufferOp, hw]
    exact if_neg fun hd => Bool.false_ne_true hd.1
  simp only [Stored.step, TcpConnection.step, hsame, Option.bind_some, hop] at hout
  exact (Option.some.inj hout).symm

/-- **One event.**  It stays inside the storages exactly when its lengths fit, and the
state goes on following the events. -/
theorem Follows.step_iff (h : Follows sockfd as e) (hpre : e.Pre a) :
    ((∃ e', e.step a = some e' ∧ e'.Inside) ↔ Fits as a) ∧
      ∀ e', e.step a = some e' → e'.Inside → Follows sockfd (as ++ [a]) e' := by
  cases a with
  | handleRead r w =>
      cases r with
      | failed errno =>
          have hstep : e.step (.handleRead (.failed errno) w) = some e := rfl
          refine ⟨iff_of_true ⟨e, hstep, h.inside⟩ trivial, fun e' he' _ => ?_⟩
          obtain rfl := Option.some.inj (hstep.symm.trans he')
          exact h.concat_quiet rfl h.stored h.quiet h.answers
      | delivered bs =>
          by_cases hbs : bs = []
          · -- the peer has closed its side
            subst hbs
            obtain ⟨out, hout, hag, hcall⟩ := h.call .handleClose e.inputBuffer_
              fun _ _ he => by cases he
            have hstep : e.step (.handleRead (.delivered []) w) = some ⟨out, e.inputBuffer_⟩ := by
              rw [step, h.input.readFd_nil]
              exact hcall
            refine ⟨iff_of_true ⟨_, hstep, h.input.valid, hag⟩ ⟨.inl (Nat.zero_le _), fun _ => ?_⟩,
              fun e' he' _ => ?_⟩
            · refine .inl (Nat.le_trans (Nat.le_of_eq ?_) (Nat.zero_le _))
              rw [leftover, List.length_nil, Nat.zero_sub, ite_self]
            · obtain rfl := Option.some.inj (hstep.symm.trans he')
              refine h.close (.inl rfl) hout hag rfl ?_ rfl
              rw [reply, ite_self]
          · by_cases hclear : Clear (longest as) bs.length
            · obtain ⟨b, hb, hall, hin⟩ := h.input.readFd hpre hclear
              have hpos : (0 : ℤ) < bs.length := by
                have := List.length_pos_of_ne_nil hbs
                omega
              have hstep : e.step (.handleRead (.delivered bs) w) =
                  EchoConnection.onMessage { e with inputBuffer_ := b } w := by
                rw [step, hb]
                exact if_pos hpos
              rw [hstep, h.onMessage_iff hall hin w]
              exact ⟨(and_iff_right hclear).symm, fun e' he' hag => h.onMessage hall hin he' hag⟩
            · have hstep : e.step (.handleRead (.delivered bs) w) = none := by
                rw [step, h.input.readFd_eq_none hpre hclear, Option.bind_none]
              rw [hstep]
              exact ⟨iff_of_false (fun ⟨_, he, _⟩ => by cases he) fun hf => hclear hf.1,
                fun e' he' => by cases he'⟩
  | handleWrite w =>
      obtain ⟨out, hout, hag, hcall⟩ := h.call (.handleWrite w) e.inputBuffer_
        fun _ _ he => by cases he
      refine ⟨iff_of_true ⟨_, hcall, h.input.valid, hag⟩ trivial, fun e' he' _ => ?_⟩
      obtain rfl := Option.some.inj (hcall.symm.trans he')
      refine h.concat_quiet rfl hag (fun hq => ?_) fun hq => ?_
      · rw [h.quiet hq] at hout
        exact step_handleWrite_established hout
      · exact (h.answers hq).step (fun _ _ he => by cases he) (Stored.conn_of_step hout)
  | handleClose =>
      obtain ⟨out, hout, hag, hcall⟩ := h.call .handleClose e.inputBuffer_
        fun _ _ he => by cases he
      refine ⟨iff_of_true ⟨_, hcall, h.input.valid, hag⟩ trivial, fun e' he' _ => ?_⟩
      obtain rfl := Option.some.inj (hcall.symm.trans he')
      exact h.close (.inl rfl) hout hag rfl rfl rfl
  | connectDestroyed =>
      obtain ⟨out, hout, hag, hcall⟩ := h.call .connectDestroyed e.inputBuffer_
        fun _ _ he => by cases he
      refine ⟨iff_of_true ⟨_, hcall, h.input.valid, hag⟩ trivial, fun e' he' _ => ?_⟩
      obtain rfl := Option.some.inj (hcall.symm.trans he')
      exact h.close (.inr rfl) hout hag rfl rfl rfl

/-- **When the sample server stays inside its buffers.**  Exactly when no message is
longer by `1` to `kCheapPrepend` bytes than the longest before it, or than the initial
size, and the kernel takes so much of the first message that the rest is not longer by
`1` to `kCheapPrepend` bytes than the initial size. -/
theorem stays_inside_iff {as : List Event} (hpre : Along step Pre (established sockfd) as) :
    Safe step Inside (established sockfd) as ↔
      ∀ bs a cs, as = bs ++ a :: cs → Fits bs a :=
  safe_iff_forall_split (fun _ _ h => h.inside) (fun _ _ _ h hpre => (h.step_iff hpre).1)
    (fun _ _ _ _ h hpre he hin => (h.step_iff hpre).2 _ he hin) (follows_established sockfd) hpre

/-- One message on a new connection, and one call of `handleWrite`. -/
theorem pre_message (sockfd : ℤ) (bs : List UInt8) (hbs : bs.length ≤ Buffer.extrabufSize)
    (w w' : WriteResult) :
    Along step Pre (established sockfd) [.handleRead (.delivered bs) w, .handleWrite w'] := by
  refine ⟨?_, fun _ _ => ⟨trivial, fun _ _ => trivial⟩⟩
  show bs.length ≤ _
  rw [Buffer.iovcnt, show (established sockfd).inputBuffer_.writerBytes = Buffer.kInitialSize from
    drained_ofSize.writerBytes_eq, if_pos (by decide)]
  exact Nat.le_trans hbs (Nat.le_add_left _ _)

/-- A first message of at most `1024` bytes fits. -/
theorem fits_message {bs : List UInt8} (hbs : bs.length ≤ Buffer.kInitialSize)
    (w w' : WriteResult) (cs : List Event) (a : Event) (ds : List Event)
    (h : [.handleRead (.delivered bs) w, .handleWrite w'] = cs ++ a :: ds) : Fits cs a := by
  cases cs with
  | nil =>
      obtain ⟨rfl, -⟩ := List.cons.inj h
      refine ⟨.inl hbs, fun _ => .inl (Nat.le_trans ?_ hbs)⟩
      unfold leftover
      split_ifs <;> omega
  | cons c cs =>
      obtain ⟨-, h⟩ := List.cons.inj h
      cases cs with
      | nil =>
          obtain ⟨rfl, -⟩ := List.cons.inj h
          trivial
      | cons d cs => simp at h

/-- The hypothesis is satisfiable: `3` bytes are answered in two parts, and of a message
of `1025` bytes the last one is written past the end of `inputBuffer_`. -/
theorem stays_inside_iff_short :
    Safe step Inside (established 5)
        [.handleRead (.delivered [1, 2, 3]) (.wrote 2), .handleWrite (.wrote 1)] ∧
      ¬Safe step Inside (established 5)
        [.handleRead (.delivered (List.replicate 1025 0)) (.wrote 1025),
          .handleWrite (.wrote 1)] := by
  refine ⟨(stays_inside_iff (pre_message 5 _ (by decide) _ _)).2 fun cs a ds h =>
    fits_message (by decide) _ _ cs a ds h, fun h => ?_⟩
  have hlen : (List.replicate 1025 (0 : UInt8)).length = 1025 := List.length_replicate
  have hpre := pre_message 5 (List.replicate 1025 0) (by rw [hlen]; decide) (.wrote 1025)
    (.wrote 1)
  have hfits := ((stays_inside_iff hpre).1 h [] _ _ rfl).1
  rw [hlen] at hfits
  exact absurd hfits (by decide)

/-- **The sample server answers the first message**, all of it and nothing else, unless
the connection is closed before it arrives or the peer is gone, and closes the write side
behind its last byte: as long as the lengths fit, every run goes
through, the bytes handed to the kernel and the ones still in `outputBuffer_` are the
answer, the write side has not been shut down or was shut down behind the whole answer,
and it has been shut down if nothing of the answer is left and the connection was not
closed. -/
theorem echoes {as : List Event} (hpre : Along step Pre (established sockfd) as)
    (hfits : ∀ bs a cs, as = bs ++ a :: cs → Fits bs a) :
    ∃ e, exec step (established sockfd) as = some e ∧
      written e.out.conn.fd ++ e.out.buf.readable = reply as ∧
      (Unshut e.out.conn.fd ∨ Finished e.out.conn.fd (reply as)) ∧
      (e.out.conn.state_ = .kDisconnecting → e.out.buf.readable = [] →
        Finished e.out.conn.fd (reply as)) := by
  obtain ⟨e, he, h⟩ := exists_exec_of_forall_split
    (fun _ _ _ h hpre => (h.step_iff hpre).1)
    (fun _ _ _ _ h hpre he hin => (h.step_iff hpre).2 _ he hin) (follows_established sockfd) hpre
    hfits
  rw [List.nil_append] at h
  have hbuf : e.out.buf.readable = e.out.conn.outputBuffer_.content := h.stored.2
  refine ⟨e, he, ?_⟩
  rw [hbuf]
  cases hq : as.all Event.quiet with
  | true =>
      have hreply : reply as = [] := by
        clear he hpre hfits h
        induction as with
        | nil => rfl
        | cons a as ih =>
            rw [List.all_cons, Bool.and_eq_true] at hq
            cases a with
            | handleRead r w =>
                cases r with
                | delivered bs => cases hq.1
                | failed errno => exact ih hq.2
            | handleWrite w => exact ih hq.2
            | handleClose => rfl
            | connectDestroyed => rfl
      rw [h.quiet hq, hreply]
      exact ⟨rfl, .inl (fun _ he => by cases he), fun hs => by cases hs⟩
  | false =>
      have hr := h.answers hq
      exact ⟨hr.closes.streams.stream, hr.closes.shut, hr.closes.drained⟩

/-- The hypotheses are satisfiable: the direct write takes `2` of `3` bytes,
`handleWrite` the third. -/
theorem echoes_short : ∃ e, exec step (established 5)
      [.handleRead (.delivered [1, 2, 3]) (.wrote 2), .handleWrite (.wrote 1)] = some e ∧
    written e.out.conn.fd ++ e.out.buf.readable = [1, 2, 3] := by
  obtain ⟨e, he, hstream, -⟩ := echoes (pre_message 5 [1, 2, 3] (by decide) (.wrote 2)
    (.wrote 1)) fun cs a ds h => fits_message (by decide) _ _ cs a ds h
  exact ⟨e, he, hstream⟩

end EchoConnection

end MuMuduo
