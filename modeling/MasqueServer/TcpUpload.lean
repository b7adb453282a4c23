import Mathlib.Data.List.Infix
import MasqueServer.Runs
import MasqueServer.Octets

/-!
# The upload of a CONNECT-TCP tunnel

The shard reads the request body from HTTP/3 and hands it to a writer task through an unbounded
channel. A shared counter of the bytes on their way keeps the channel bounded: the shard takes from
HTTP/3 only what the counter leaves room for, and when there is none it sets a flag and looks at the
counter again; the writer reports freed room when it finds the flag set.
-/
namespace MasqueServer

def maxBufferedClientBytes : ℕ := 1024 * 1024

def relayBodyLen : ℕ := 16 * 1024

inductive TcpCommand
  | data (bytes : Bytes)
  | finish
  deriving DecidableEq

def TcpCommand.bytes : TcpCommand → Bytes
  | .data bytes => bytes
  | .finish => []

def commandBytes (channel : List TcpCommand) : Bytes := (channel.map (·.bytes)).flatten

/-- Where the shard stands: between its calls; in `client_capacity` before it arms the waiter
or before it loads the counter again; back from it with a capacity to fill; in
`queue_client_data` before its first load, before a compare-exchange, before the send, or before
it takes back the reservation of a failed send. A refusal ends in a reset of the stream. -/
inductive ShardPhase
  | idle
  | arming
  | rechecking
  | offered (capacity : ℕ)
  | reserving (data : Bytes)
  | exchanging (data : Bytes) (current : ℕ)
  | sending (data : Bytes)
  | undoing (len : ℕ)
  | refused
  | gone
  deriving DecidableEq

/-- Where the writer stands: at the channel; in `write_all`, with what is left of a chunk; after
it, before the counter is lowered; before the waiter flag is loaded, swapped, or answered; before
the shutdown; before its last report; at its end. -/
inductive WriterPhase
  | receiving
  | writing (rest : Bytes) (len : ℕ)
  | releasing (len : ℕ) (ok : Bool)
  | checking
  | swapping
  | notifying
  | closing
  | reporting (failed : Bool)
  | ended
  deriving DecidableEq

/-- What happened around the capacity, in order: the waiter was armed, a call returned, a
wakeup was sent, the shard received one. -/
inductive UploadRecord
  | armed
  | returned (capacity : ℕ)
  | writable
  | received
  deriving DecidableEq

structure TcpUpload where
  /-- Body bytes HTTP/3 holds for the shard, and whether the body ends behind them. -/
  unread : Bytes
  fin : Bool
  /-- All body bytes so far. -/
  request : Bytes
  connected : Bool
  /-- `early_data` and `client_finished` of the pending tunnel. -/
  early : List Bytes
  pendingFinished : Bool
  clientFinished : Bool
  shard : ShardPhase
  queuedClientBytes : ℕ
  clientCapacityWaiter : Bool
  channel : List TcpCommand
  writer : WriterPhase
  target : Bytes
  shut : Bool
  /-- Wakeups the shard has not received yet. -/
  wakeups : ℕ
  history : List UploadRecord
  deriving DecidableEq

inductive ClientStep
  | arrive (bytes : Bytes)
  | fin

inductive ShardStep
  | buffer (n : ℕ)
  | markFinished
  | connect
  | transfer
  | finishClient
  | loadCapacity
  | arm
  | reload
  | recvBody (n : ℕ)
  | leave
  | loadReserve
  | exchange (spurious : Bool)
  | sendCommand
  | undo
  | receiveWritable
  | drop

inductive WriterStep
  | take
  | write (n : ℕ)
  | writeDone
  | writeFails
  | fetchSub
  | loadWaiter
  | swapWaiter
  | notify
  | shutdown (ok : Bool)
  | report
  | abort

inductive UploadEvent
  | client (e : ClientStep)
  | shard (e : ShardStep)
  | writer (e : WriterStep)

namespace TcpUpload

def opened : TcpUpload :=
  ⟨[], false, [], false, [], false, false, .idle, 0, false, [], .receiving, [], false, 0, []⟩

variable (s : TcpUpload)

def earlyBytes : ℕ := s.early.flatten.length

/-- HTTP/3 reports the end of the body once everything before it was read. -/
def streamFinished : Bool := s.fin && s.unread.isEmpty

def relaying : Bool :=
  s.shard = .idle && s.connected && s.early.isEmpty && (!s.pendingFinished || s.clientFinished)

def clientStep : ClientStep → Option TcpUpload
  | .arrive bytes =>
    if s.fin then none
    else some { s with unread := s.unread ++ bytes, request := s.request ++ bytes }
  | .fin => some { s with fin := true }

def bufferClientData (bodyLen n : ℕ) : Option TcpUpload :=
  if s.shard = .idle ∧ s.connected = false ∧ 0 < n ∧ n ≤ s.unread.length ∧
      n ≤ min bodyLen (maxBufferedClientBytes - s.earlyBytes) then
    some { s with early := s.early ++ [s.unread.take n], unread := s.unread.drop n }
  else none

def loadCapacity : TcpUpload :=
  if s.queuedClientBytes < maxBufferedClientBytes then
    { s with
      shard := .offered (maxBufferedClientBytes - s.queuedClientBytes)
      history := s.history ++ [.returned (maxBufferedClientBytes - s.queuedClientBytes)] }
  else { s with shard := .arming }

/-- The second load returns what room there is by now; the relay stops at none. -/
def reloadCapacity : TcpUpload :=
  let capacity := maxBufferedClientBytes - s.queuedClientBytes
  { s with
    shard := if capacity = 0 then .idle else .offered capacity
    history := s.history ++ [.returned capacity] }

/-- One round of the loop in `reserve_bounded`. A weak exchange may fail for no reason. -/
def exchange (data : Bytes) (current : ℕ) (spurious : Bool) : TcpUpload :=
  if current + data.length ≤ maxBufferedClientBytes then
    if s.queuedClientBytes = current ∧ spurious = false then
      { s with queuedClientBytes := current + data.length, shard := .sending data }
    else { s with shard := .exchanging data s.queuedClientBytes }
  else { s with shard := .refused }

def send (command : TcpCommand) : TcpUpload :=
  if s.writer = .ended then s else { s with channel := s.channel ++ [command] }

def finishClient : TcpUpload :=
  if s.clientFinished then s else { s.send .finish with clientFinished := true }

/-- The steps of the shard. The early data is handed over right after the connect, before any
further call, and the end of the body behind it. -/
def shardStep (bodyLen : ℕ) (s : TcpUpload) : ShardStep → Option TcpUpload
  | .buffer n => s.bufferClientData bodyLen n
  | .markFinished =>
    if s.shard = .idle ∧ s.connected = false ∧ s.streamFinished = true then
      some { s with pendingFinished := true }
    else none
  | .connect =>
    if s.shard = .idle ∧ s.connected = false then some { s with connected := true } else none
  | .transfer =>
    match s.early with
    | [] => none
    | data :: rest =>
      if s.shard = .idle ∧ s.connected = true then
        some { s with early := rest, shard := .reserving data }
      else none
  | .finishClient =>
    if s.shard = .idle ∧ s.connected = true ∧ s.early = [] ∧
        (s.pendingFinished = true ∨ s.streamFinished = true) then
      some s.finishClient
    else none
  | .loadCapacity => if s.relaying = true then some s.loadCapacity else none
  | .arm =>
    if s.shard = .arming then
      some { s with
        shard := .rechecking
        clientCapacityWaiter := true
        history := s.history ++ [.armed] }
    else none
  | .reload => if s.shard = .rechecking then some s.reloadCapacity else none
  | .recvBody n =>
    match s.shard with
    | .offered capacity =>
      if 0 < n ∧ n ≤ s.unread.length ∧ n ≤ min bodyLen capacity then
        some { s with shard := .reserving (s.unread.take n), unread := s.unread.drop n }
      else none
    | _ => none
  | .leave =>
    match s.shard with
    | .offered _ => some { s with shard := .idle }
    | _ => none
  | .loadReserve =>
    match s.shard with
    | .reserving data =>
      some { s with
        shard := if s.clientFinished then .refused else .exchanging data s.queuedClientBytes }
    | _ => none
  | .exchange spurious =>
    match s.shard with
    | .exchanging data current => some (s.exchange data current spurious)
    | _ => none
  | .sendCommand =>
    match s.shard with
    | .sending data =>
      some { s.send (.data data) with
        shard := if s.writer = .ended then .undoing data.length else .idle }
    | _ => none
  | .undo =>
    match s.shard with
    | .undoing len =>
      some { s with queuedClientBytes := s.queuedClientBytes - len, shard := .refused }
    | _ => none
  | .receiveWritable =>
    if s.relaying = true ∧ 0 < s.wakeups then
      some { s with wakeups := s.wakeups - 1, history := s.history ++ [.received] }
    else none
  | .drop =>
    if s.shard = .idle ∨ s.shard = .refused then some { s with shard := .gone } else none

/-- The steps of the writer. It may write a chunk in parts and fail between them. Once the
tunnel is gone the task is aborted at some point. -/
def writerStep : WriterStep → Option TcpUpload
  | .take =>
    match s.writer, s.channel with
    | .receiving, .data bytes :: channel =>
      some { s with channel, writer := .writing bytes bytes.length }
    | .receiving, .finish :: channel => some { s with channel, writer := .closing }
    | _, _ => none
  | .write n =>
    match s.writer with
    | .writing rest len =>
      some { s with target := s.target ++ rest.take n, writer := .writing (rest.drop n) len }
    | _ => none
  | .writeDone =>
    match s.writer with
    | .writing [] len => some { s with writer := .releasing len true }
    | _ => none
  | .writeFails =>
    match s.writer with
    | .writing _ len => some { s with writer := .releasing len false }
    | _ => none
  | .fetchSub =>
    match s.writer with
    | .releasing len ok =>
      some { s with
        queuedClientBytes := s.queuedClientBytes - len
        writer := if ok then .checking else .reporting true }
    | _ => none
  | .loadWaiter =>
    if s.writer = .checking then
      some { s with writer := if s.clientCapacityWaiter then .swapping else .receiving }
    else none
  | .swapWaiter =>
    if s.writer = .swapping then
      some { s with
        clientCapacityWaiter := false
        writer := if s.clientCapacityWaiter then .notifying else .receiving }
    else none
  | .notify =>
    if s.writer = .notifying then
      some { s with
        writer := .receiving
        wakeups := s.wakeups + 1
        history := s.history ++ [.writable] }
    else none
  | .shutdown ok =>
    if s.writer = .closing then some { s with shut := ok, writer := .reporting !ok } else none
  | .report =>
    match s.writer with
    | .reporting _ => some { s with writer := .ended }
    | _ => none
  | .abort => if s.shard = .gone then some { s with writer := .ended } else none

def step (bodyLen : ℕ) (s : TcpUpload) : UploadEvent → Option TcpUpload
  | .client e => s.clientStep e
  | .shard e => s.shardStep bodyLen e
  | .writer e => s.writerStep e

end TcpUpload

end MasqueServer
