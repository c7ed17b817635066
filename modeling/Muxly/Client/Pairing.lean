/-
# Muxly.Client.Pairing -- whose answer a request gets

`Client.requestJson` against a server that answers every line with one line. A response carries no
check of its request: which answer a call returns rests on what the reader still holds. A call that
fails after its request has been written leaves its answer there, and the next call returns it;
`requestJson_paired` is about the runs in which no call did.
-/
import Muxly.Client.MessageReader

namespace Muxly.Client

open Muxly.Core

/-! ## The server -/

/-- A server that answers one line with one line: `reply` is its answer to the last of the lines. -/
structure Service where
  reply : List Bytes → Bytes
  oneLine : ∀ lines, newline ∉ reply lines

/-- The lines that a server has read, and the beginning of the next. -/
structure Peer where
  lines : List Bytes
  unfinished : Bytes

/-- What the server makes of more bytes, and the bytes that it sends back. -/
def Peer.accept (service : Service) : Bytes → Peer → Peer × Bytes
  | [], peer => (peer, [])
  | c :: rest, peer =>
    if c = newline then
      let lines := peer.lines ++ [peer.unfinished]
      let (peer', sent) := accept service rest ⟨lines, []⟩
      (peer', service.reply lines ++ newline :: sent)
    else accept service rest { peer with unfinished := peer.unfinished ++ [c] }

namespace Peer

variable {service : Service} {text : Bytes}

/-- The peer once the line that it reads ends with `text`. -/
def finish (peer : Peer) (text : Bytes) : Peer :=
  ⟨peer.lines ++ [peer.unfinished ++ text], []⟩

theorem accept_append_of_not_mem (h : newline ∉ text) (rest : Bytes) (peer : Peer) :
    peer.accept service (text ++ rest) =
      accept service rest { peer with unfinished := peer.unfinished ++ text } := by
  induction text generalizing peer with
  | nil => simp
  | cons c text ih =>
      obtain ⟨hc, htext⟩ := not_or.mp (List.mem_cons.not.mp h)
      rw [List.cons_append, accept, if_neg (Ne.symm hc), ih htext]
      simp

/-- Part of a line is not answered. -/
theorem accept_of_not_mem (h : newline ∉ text) (peer : Peer) :
    peer.accept service text = ({ peer with unfinished := peer.unfinished ++ text }, []) := by
  have happend := @accept_append_of_not_mem service text h [] peer
  rwa [List.append_nil] at happend

/-- The end of a line is answered with one line. -/
theorem accept_line (h : newline ∉ text) (peer : Peer) :
    peer.accept service (text ++ [newline]) =
      (peer.finish text, service.reply (peer.finish text).lines ++ [newline]) := by
  rw [accept_append_of_not_mem h, accept, if_pos rfl]
  rfl

end Peer

/-! ## The client -/

/-- `Client`, with the server at the other end. -/
structure LineClient where
  connected : Bool
  responseReader : MessageReader
  peer : Peer

/-- A client that has not connected yet. -/
def LineClient.init : LineClient := ⟨false, ⟨[], []⟩, ⟨[], []⟩⟩

/-- A call of `requestJson`, and what it meets: whether it can connect, after how many bytes its
writes fail, if they do, and how the response arrives. -/
structure RequestCall where
  requestJson : Bytes
  connects : Bool
  writeFailsAfter : Option Nat
  reads : List Read

/-- How a call ends. -/
inductive RequestOutcome where
  | connectFailed
  | writeFailed
  /-- The request has been written. -/
  | read (outcome : ReadOutcome)
  deriving DecidableEq

namespace LineClient

variable (service : Service) (maxMessageBytes : Nat)

/-- Write to the connection. -/
def write (client : LineClient) (bytes : Bytes) : LineClient :=
  let (peer, sent) := client.peer.accept service bytes
  { client with
    responseReader := { client.responseReader with
      incoming := client.responseReader.incoming ++ sent }
    peer }

/-- `requestJson`. -/
def requestJson (call : RequestCall) (client : LineClient) : RequestOutcome × LineClient :=
  if ¬client.connected ∧ ¬call.connects then (.connectFailed, client)
  else
    let client := { client with connected := true }
    match call.writeFailsAfter with
    | some count => (.writeFailed, client.write service (call.requestJson.take count))
    | none =>
      let client := client.write service (call.requestJson ++ [newline])
      let (outcome, responseReader) :=
        MessageReader.readMessageLine maxMessageBytes call.reads client.responseReader
      (.read outcome, { client with responseReader })

/-! ## Runs -/

/-- The clients that a sequence of calls can leave, over the calls that satisfy `cond`. Every call
has returned. -/
inductive Calls (cond : LineClient → RequestCall → Prop) : List RequestOutcome → LineClient → Prop
  | start : Calls cond [] .init
  | call {history : List RequestOutcome} {client client' : LineClient} {call : RequestCall}
      {outcome : RequestOutcome} :
      Calls cond history client → cond client call →
      client.requestJson service maxMessageBytes call = (outcome, client') →
      outcome ≠ .read .waiting → Calls cond (history ++ [outcome]) client'

/-- The calls that wrote their request. -/
def written (history : List RequestOutcome) : Nat :=
  history.countP fun
    | .read _ => true
    | _ => false

/-- The call writes its whole request. -/
def Writes (client : LineClient) (call : RequestCall) : Prop :=
  (client.connected ∨ call.connects) ∧ call.writeFailsAfter = none

/-- A call that leaves nothing behind: its request is one line and, once that is written, no read
fails and the answer fits into a message. -/
def LeavesNothing (client : LineClient) (call : RequestCall) : Prop :=
  newline ∉ call.requestJson ∧
    (client.Writes call → .failed ∉ call.reads ∧
      (service.reply (client.peer.finish call.requestJson).lines).length < maxMessageBytes)

instance (client : LineClient) (call : RequestCall) : Decidable (client.Writes call) :=
  inferInstanceAs (Decidable (_ ∧ _))

instance (client : LineClient) (call : RequestCall) :
    Decidable (client.LeavesNothing service maxMessageBytes call) :=
  inferInstanceAs (Decidable (_ ∧ _))

section Pairing

variable {service : Service} {maxMessageBytes : Nat} {client client' : LineClient} {call : RequestCall}
  {outcome : RequestOutcome} {history : List RequestOutcome}

/-- Part of a line brings no answer. -/
theorem write_of_not_mem {text : Bytes} (h : newline ∉ text) (client : LineClient) :
    client.write service text =
      { client with
        peer := { client.peer with unfinished := client.peer.unfinished ++ text } } := by
  rw [write, Peer.accept_of_not_mem h]
  simp only [List.append_nil]

/-- What a call does with a request that is one line. -/
theorem requestJson_cases (hline : newline ∉ call.requestJson)
    (h : client.requestJson service maxMessageBytes call = (outcome, client')) :
    (outcome = .connectFailed ∧ client' = client) ∨
    (outcome = .writeFailed ∧ client'.peer.lines = client.peer.lines ∧
      client'.responseReader = client.responseReader) ∨
    ∃ read, client.Writes call ∧ outcome = .read read ∧
      client'.peer = client.peer.finish call.requestJson ∧
      MessageReader.Returns maxMessageBytes call.reads
        { client.responseReader with
          incoming := client.responseReader.incoming ++
            (service.reply (client.peer.finish call.requestJson).lines ++ [newline]) }
        read client'.responseReader := by
  unfold requestJson at h
  split at h
  · cases h
    exact .inl ⟨rfl, rfl⟩
  · rename_i hconnected
    split at h
    · rename_i count _
      cases h
      have htake : newline ∉ call.requestJson.take count := fun hmem =>
        hline (List.mem_of_mem_take hmem)
      rw [write_of_not_mem htake]
      exact .inr (.inl ⟨rfl, rfl, rfl⟩)
    · rename_i hwrites
      simp only [write, Peer.accept_line hline] at h
      cases h
      refine .inr (.inr ⟨_, ⟨?_, hwrites⟩, rfl, rfl, ?_⟩)
      · by_contra hnone
        exact hconnected (not_or.mp hnone)
      · exact MessageReader.readMessageLine_returns ..

/-- With nothing left behind, a call reads its own answer: the reader's stream is one line. -/
theorem returns_of_stream_nil {read : ReadOutcome} {reads : List Read} {answer : Bytes}
    {reader reader' : MessageReader} (hstream : reader.stream = []) (hanswer : newline ∉ answer)
    (h : MessageReader.Returns maxMessageBytes reads
      { reader with incoming := reader.incoming ++ (answer ++ [newline]) } read reader') :
    (read = .line answer ∧ reader'.stream = []) ∨ (read = .failed ∧ .failed ∈ reads) ∨
      (read = .messageTooLarge ∧ maxMessageBytes ≤ answer.length) ∨ read = .waiting := by
  have heq : MessageReader.stream
      { reader with incoming := reader.incoming ++ (answer ++ [newline]) } =
        answer ++ newline :: [] := by
    rw [MessageReader.stream, ← List.append_assoc]
    exact congrArg (· ++ (answer ++ [newline])) hstream
  generalize MessageReader.mk reader.pending (reader.incoming ++ (answer ++ [newline])) = before
    at h heq
  cases h with
  | line hline hrest =>
      obtain ⟨rfl, hnil⟩ := line_inj hanswer hline (heq ▸ hrest)
      exact .inl ⟨rfl, hnil.symm⟩
  | last _ hline => exact absurd (by simp [heq]) hline
  | endOfStream hempty => simp [heq] at hempty
  | failed hfailed => exact .inr (.inl ⟨rfl, hfailed⟩)
  | messageTooLarge hlarge =>
      simp only [heq, List.length_append, List.length_singleton] at hlarge
      exact .inr (.inr (.inl ⟨rfl, by omega⟩))
  | waiting => exact .inr (.inr (.inr rfl))

/-- Between calls that leave nothing behind, the reader is empty, and the server has read as many
lines as requests have been written. -/
theorem Calls.stream_nil
    (h : Calls service maxMessageBytes (LeavesNothing service maxMessageBytes) history client) :
    client.responseReader.stream = [] ∧ client.peer.lines.length = written history := by
  induction h with
  | start => exact ⟨rfl, rfl⟩
  | @call history client client' call outcome _ hcond hcall hreturned ih =>
      obtain ⟨hstream, hlines⟩ := ih
      obtain ⟨hline, hfits⟩ := hcond
      rw [written, List.countP_append]
      rcases requestJson_cases hline hcall with ⟨rfl, rfl⟩ | ⟨rfl, hpeer, hreader⟩ |
        ⟨read, hwrites, rfl, hpeer, hreturns⟩
      · exact ⟨hstream, hlines⟩
      · rw [hpeer, hreader]
        exact ⟨hstream, hlines⟩
      · obtain ⟨hfailed, hlength⟩ := hfits hwrites
        refine ⟨?_, by simp [hpeer, Peer.finish, hlines, written]⟩
        rcases returns_of_stream_nil hstream (service.oneLine _) hreturns with ⟨-, hnil⟩ |
          ⟨-, hmem⟩ | ⟨-, hlarge⟩ | rfl
        · exact hnil
        · exact absurd hmem hfailed
        · omega
        · exact absurd rfl hreturned

end Pairing

/-! ## Two calls -/

/-- A server whose first answer is `[1, 2, 3]`, and whose other answers are `[4]`. -/
def twoAnswers : Service where
  reply lines := if lines.length = 1 then [1, 2, 3] else [4]
  oneLine lines := by split <;> decide

/-- A call that meets no failure; its response arrives in pieces of at most three bytes. -/
def plainCall : RequestCall := ⟨[5], true, none, [.bytes 2, .bytes 2]⟩

end LineClient

end Muxly.Client
