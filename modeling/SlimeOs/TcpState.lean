import Mathlib.Data.List.FinRange
import SlimeOs.NetworkContracts

/-!
The network service's engine of holder-bound TCP connections.

A pool of sockets is shared by connections and listeners: connection `i` uses socket `i`, and a
listener names the socket it listens on. The sockets themselves belong to the protocol stack,
which moves them between the engine's operations and answers what the engine asks of them
(`Stack`); nothing is assumed about its answers, and the resolver's are treated alike. `Smoltcp`
has the calls that cannot fail, and the two facts about them that are relied on.

`Use` and `NameConnect.starter` are not in the source: they keep what the engine found when it
took a socket, and which connection a lookup was started for.
-/

namespace SlimeOs.Tcp

open ByteLayout FallibleCall Network

abbrev socketCount : Nat := 4

/-- A socket of the pool, a connection and an entry of the listener table. -/
abbrev Index := Fin socketCount

abbrev Instant := Nat

def seconds (count : Nat) : Nat := count * 1000000
def millis (count : Nat) : Nat := count * 1000

def maxIncarnation : Nat := 2 ^ 30 - 1
def operationTimeout : Nat := seconds 10
def firstEphemeralPort : UInt16 := 49152
def bufferBytes : Nat := minBufferBytes

def defaultOptions : SocketOptions where
  keepaliveMs := 0
  idleTimeoutMs := 10000
  hopLimit := 64
  nagle := true
  rxBufferBytes := bufferBytes
  txBufferBytes := bufferBytes

structure IpEndpoint where
  addr : Ipv4
  port : UInt16
deriving DecidableEq

inductive State where
  | closed
  | listen
  | synSent
  | synReceived
  | established
  | finWait1
  | finWait2
  | closeWait
  | closing
  | lastAck
  | timeWait
deriving DecidableEq

structure Socket where
  state : State
  localEndpoint : Option IpEndpoint
  remoteEndpoint : Option IpEndpoint
  recvQueue : Nat
  sendQueue : Nat
  keepAlive : Option Nat
deriving DecidableEq

structure Smoltcp where
  new : Socket
  abort : Socket → Socket
  setNagleEnabled : Socket → Bool → Socket
  setHopLimit : Socket → Option Nat → Socket
  setTimeout : Socket → Option Nat → Socket
  setKeepAlive : Socket → Option Nat → Socket
  new_closed : new.state = .closed
  abort_endpoints : ∀ socket, (abort socket).localEndpoint = socket.localEndpoint ∧
    (abort socket).remoteEndpoint = socket.remoteEndpoint

def Socket.isOpen (socket : Socket) : Bool :=
  socket.state == .established || socket.state == .closeWait

/-- `local_endpoint().zip(remote_endpoint())`. -/
def Socket.endpoints (socket : Socket) : Option (IpEndpoint × IpEndpoint) :=
  match socket.localEndpoint, socket.remoteEndpoint with
  | some near, some far => some (near, far)
  | _, _ => none

def Smoltcp.apply (smoltcp : Smoltcp) (socket : Socket) (options : SocketOptions) : Socket :=
  let socket := smoltcp.setNagleEnabled socket options.nagle
  let socket := smoltcp.setHopLimit socket (some (max options.hopLimit 1))
  let socket := smoltcp.setTimeout socket (some (millis options.idleTimeoutMs))
  smoltcp.setKeepAlive socket
    (if options.keepaliveMs ≠ 0 then some (millis options.keepaliveMs) else none)

inductive Status where
  | success
  | denied
  | malformed
  | unsupported
  | exhausted
  | wouldBlock
  | refused
  | timeout
  | reset
deriving DecidableEq

/-- The exchange in progress, as far as the engine can tell. -/
structure Resolver where
  controlled : Bool
  query : Option (List UInt8)
deriving DecidableEq

def Resolver.cancel (resolver : Resolver) : Resolver := { resolver with query := none }

/-- The answers of the protocol stack and of the resolver during one operation. -/
structure Stack where
  hasIpAddr : Ipv4 → Bool
  connect : Socket → IpEndpoint → UInt16 → Option Socket
  listen : Socket → IpEndpoint → Option Socket
  close : Socket → Socket
  maySend : Socket → Bool
  canSend : Socket → Bool
  mayRecv : Socket → Bool
  canRecv : Socket → Bool
  sendSlice : Socket → List UInt8 → Option (Nat × Socket)
  recvSlice : Socket → Nat → Option (Nat × Socket)
  start : Resolver → List UInt8 → Instant → Option Status × Resolver
  poll : Resolver → Instant → Option (Except Status Dns.Answer) × Resolver
  permitEgress : Resolver → List UInt8 → Bool × Resolver

/-- Sequence numbers compare by the sign of their difference. -/
abbrev TcpSeqNumber := BitVec 32

def seqLt (a b : TcpSeqNumber) : Bool := (a - b).msb

def seqMax (a b : TcpSeqNumber) : TcpSeqNumber := if seqLt b a then a else b

structure Segment where
  source : IpEndpoint
  destination : IpEndpoint
  syn : Bool
  fin : Bool
  rst : Bool
  ack : Bool
  seqNumber : TcpSeqNumber
  payload : List UInt8
deriving DecidableEq

inductive Frame where
  | malformed
  | other
  | udp (packet : List UInt8)
  | tcp (segment : Segment)
deriving DecidableEq

structure Completion where
  status : Status
  capability : Nat
  capabilityKind : UInt8
  transferred : Nat
  eof : Bool
deriving DecidableEq

def Completion.ofStatus (status : Status) : Completion where
  status := status
  capability := 0
  capabilityKind := capabilityNone
  transferred := 0
  eof := false

/-- The source's `Outcome`. -/
inductive Reply where
  | complete (completion : Completion)
  | pending (capability : Nat)
deriving DecidableEq

def fail (status : Status) : Reply := .complete (.ofStatus status)

inductive Phase where
  | resolving
  | connecting
  | connected
  | closing
deriving DecidableEq

/-- The part of a connection that says whose it is and what it is charged to. -/
structure Grant where
  id : Nat
  holder : Holder
  destination : Nat
  rights : UInt16
  phase : Phase
  listener : Option Nat
  shutdown : Bool
  options : SocketOptions
deriving DecidableEq

structure Connection extends Grant where
  deadline : Instant
  retryLimit : Nat
  retries : Nat
  sentEnd : Option TcpSeqNumber
  terminal : Option Status
  peerFinSeen : Bool
  closeQueues : Nat × Nat
  endpoints : Option (IpEndpoint × IpEndpoint)
deriving DecidableEq

inductive Peer where
  | holder (identity : Holder)
  | address (address : Ipv4)
deriving DecidableEq

/-- A listener without the progress of its backlog slot. -/
structure Post where
  id : Nat
  holder : Holder
  peer : Peer
  address : Ipv4
  port : UInt16
  rights : UInt16
  acceptedLimit : Nat
  byteBudget : Nat
  timerBudget : Nat
  queueDepth : Nat
  retryLimit : Nat
  options : SocketOptions
  socket : Option Index
  active : Bool
deriving DecidableEq

structure Listener extends Post where
  retries : Nat
  sentEnd : Option TcpSeqNumber
deriving DecidableEq

inductive Terminal where
  | timeWait
  | closed
  | reset
  | timeout
deriving DecidableEq

inductive Event where
  | acceptedClose (unread unsent : Nat) (terminal : Terminal) (bytes : Nat)
  | listenerClosed (children : Nat)
  | opened (holder : Holder) (socket : Index) (localPort : UInt16) (rxBytes txBytes : Nat)
deriving DecidableEq

structure Reclaimed where
  handles : Nat
  sockets : Nat
  bytes : Nat
deriving DecidableEq

structure Reset where
  near : IpEndpoint
  far : IpEndpoint
  deadline : Instant
deriving DecidableEq

structure DnsObservation where
  name : List UInt8
  addresses : List Ipv4
  count : Nat
  ttlSeconds : UInt32
  selected : Ipv4
  attempt : Nat
  port : UInt16
deriving DecidableEq

structure NameConnect where
  index : Index
  port : UInt16
  addresses : List Ipv4
  next : Nat
  deadline : Instant
  expiry : Instant
  starter : Nat
deriving DecidableEq

structure Span where
  start : Nat
  length : Nat
deriving DecidableEq

/-- A live socket and the ranges of the two pools its buffers borrow. -/
structure PoolSocket where
  socket : Socket
  rx : Span
  tx : Span
deriving DecidableEq

inductive Taking where
  | rebuilt
  | connected
  | listening
deriving DecidableEq

/-- A socket taken for a new owner, and what was true of it then. -/
structure Use where
  taking : Taking
  index : Index
  owned : Bool
  resetPending : Bool
  state : State
deriving DecidableEq

structure Engine where
  smoltcp : Smoltcp
  pool : Index → PoolSocket
  rxCapacity : Nat
  txCapacity : Nat
  shapes : Index → Nat × Nat
  connections : Index → Option Connection
  listeners : Index → Option Listener
  nameSpace : Nat
  serial : Nat
  nextPort : UInt16
  resets : Index → Option Reset
  lastNow : Instant
  resolver : Option Resolver
  dnsCapacity : Bool
  nameConnect : Option NameConnect
  dnsObservation : Option DnsObservation
  timeoutReclaimed : List Nat
  loopback : Bool
  excessRefusals : UInt32
  events : List Event
  uses : List Use

/-- `socket_over`: a socket over the first bytes of the ranges of socket `index`. -/
def Smoltcp.socketOver (smoltcp : Smoltcp) (rxCapacity txCapacity : Nat) (index : Index)
    (rx tx : Nat) : PoolSocket where
  socket := smoltcp.new
  rx := ⟨index.val * rxCapacity, rx⟩
  tx := ⟨index.val * txCapacity, tx⟩

/-- Disjoint bit fields keep the ids of incarnations and backends apart. -/
def engineSpace (epoch backend : Nat) : Nat := 1 <<< 63 ||| epoch <<< 33 ||| backend <<< 32

def Engine.new (smoltcp : Smoltcp) (storage rx tx epoch backend : Nat) : Except Status Engine :=
  if epoch = 0 ∨ maxIncarnation < epoch ∨ 1 < backend ∨ storage < socketCount ∨
      rx % socketCount ≠ 0 ∨ tx % socketCount ≠ 0 ∨
      ¬ validBufferBytes (wrap32 (rx / socketCount)) ∨
      ¬ validBufferBytes (wrap32 (tx / socketCount)) then .error .exhausted
  else .ok
    { smoltcp := smoltcp
      pool := fun index =>
        { smoltcp.socketOver (rx / socketCount) (tx / socketCount) index (rx / socketCount)
            (tx / socketCount) with
          socket := smoltcp.apply smoltcp.new defaultOptions }
      rxCapacity := rx / socketCount
      txCapacity := tx / socketCount
      shapes := fun _ => (rx / socketCount, tx / socketCount)
      connections := fun _ => none
      listeners := fun _ => none
      nameSpace := engineSpace epoch backend
      serial := 0
      nextPort := firstEphemeralPort
      resets := fun _ => none
      lastNow := 0
      resolver := none
      dnsCapacity := decide (socketCount < storage) && backend == 0
      nameConnect := none
      dnsObservation := none
      timeoutReclaimed := []
      loopback := backend == 1
      excessRefusals := 0
      events := []
      uses := [] }

namespace Engine

def socketAt (e : Engine) (index : Index) : Socket := (e.pool index).socket

def setSocket (e : Engine) (index : Index) (socket : Socket) : Engine :=
  { e with pool := Function.update e.pool index { e.pool index with socket := socket } }

def setConnection (e : Engine) (index : Index) (connection : Option Connection) : Engine :=
  { e with connections := Function.update e.connections index connection }

def setListener (e : Engine) (index : Index) (listener : Option Listener) : Engine :=
  { e with listeners := Function.update e.listeners index listener }

def listensOn (e : Engine) (index : Index) : Bool :=
  (List.finRange socketCount).any fun entry =>
    (e.listeners entry).any fun listener => listener.socket == some index

def owned (e : Engine) (index : Index) : Bool :=
  (e.connections index).isSome || e.listensOn index

def note (e : Engine) (taking : Taking) (index : Index) : Engine :=
  { e with
    uses := e.uses ++ [⟨taking, index, e.owned index, (e.resets index).isSome,
      (e.socketAt index).state⟩] }

/-- The free socket `index` gets the declared buffers, and is rebuilt when its own differ. -/
def shape (e : Engine) (index : Index) (options : SocketOptions) : Bool × Engine :=
  let declared := (options.rxBufferBytes, options.txBufferBytes)
  if e.rxCapacity < declared.1 ∨ e.txCapacity < declared.2 then (false, e)
  else if e.shapes index ≠ declared then
    let e := e.note .rebuilt index
    (true,
      { e with
        pool := Function.update e.pool index
          (e.smoltcp.socketOver e.rxCapacity e.txCapacity index declared.1 declared.2)
        shapes := Function.update e.shapes index declared })
  else (true, e)

def socketBytes (e : Engine) (index : Index) : Nat := (e.shapes index).1 + (e.shapes index).2

/-- A full queue keeps the oldest observations. -/
def record (e : Engine) (event : Event) : Engine :=
  if e.events.length < 2 * socketCount then { e with events := e.events ++ [event] } else e

def recordOpen (e : Engine) (index : Index) (holder : Holder) : Engine :=
  e.record (.opened holder index (((e.socketAt index).localEndpoint).elim 0 IpEndpoint.port)
    (e.shapes index).1 (e.shapes index).2)

def backend (e : Engine) : Backend := if e.loopback then .loopback else .external

def abortSocket (e : Engine) (index : Index) : Engine :=
  match (e.socketAt index).endpoints with
  | some (near, far) =>
    { e with
      resets := Function.update e.resets index
        (some ⟨near, far, e.lastNow + operationTimeout⟩) }.setSocket index
      (e.smoltcp.abort (e.socketAt index))
  | none => e.setSocket index (e.smoltcp.abort (e.socketAt index))

def freeSocket (e : Engine) : Option Index :=
  (List.finRange socketCount).find? fun index =>
    (e.connections index).isNone && (e.resets index).isNone && !e.listensOn index &&
      (e.socketAt index).state == .closed

def portOccupied (e : Engine) (port : UInt16) : Bool :=
  ((List.finRange socketCount).any fun index =>
    (e.socketAt index).localEndpoint.any (·.port == port) ||
      (e.socketAt index).remoteEndpoint.any (·.port == port)) ||
  ((List.finRange socketCount).any fun index =>
    (e.resets index).any fun reset => reset.near.port == port || reset.far.port == port) ||
  ((List.finRange socketCount).any fun index =>
    (e.listeners index).any fun listener => listener.port == port)

def nextPortAfter (port : UInt16) : UInt16 :=
  if port.toNat + 1 < 2 ^ 16 then port + 1 else firstEphemeralPort

def ephemeralPortFrom (e : Engine) : Nat → UInt16 → Option UInt16
  | 0, _ => none
  | passes + 1, port =>
    if !e.portOccupied port then some port
    else if nextPortAfter port = e.nextPort then none
    else ephemeralPortFrom e passes (nextPortAfter port)

def ephemeralPort (e : Engine) : Option UInt16 := e.ephemeralPortFrom (2 ^ 16) e.nextPort

def nextSerial (e : Engine) : Option Nat :=
  if e.serial + 1 < 2 ^ 32 then some (e.serial + 1) else none

def idOf (e : Engine) (serial : Nat) : Nat := e.nameSpace ||| serial

end Engine

end SlimeOs.Tcp
