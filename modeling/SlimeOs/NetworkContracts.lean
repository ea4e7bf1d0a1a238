import SlimeOs.DnsResponse

/-!
What the network service is told: the request on the wire, the declared rows of the holders and
the declared destinations. A table is the list of its decoded rows.
-/

namespace SlimeOs.Network

open ByteLayout

abbrev Holder := Bytes 32
abbrev Ipv4 := Bytes 4

def formatVersion : UInt16 := 1
def maxNameBytes : Nat := 24
def networkMagic : UInt32 := 1414745678
def opConnect : UInt8 := 1
def opSend : UInt8 := 2
def opRecv : UInt8 := 3
def opClose : UInt8 := 4
def opListen : UInt8 := 5
def opAccept : UInt8 := 6
def opResolve : UInt8 := 7
def opShutdown : UInt8 := 10
def transportNone : UInt8 := 0
def transportTcp : UInt8 := 1
def transportUdp : UInt8 := 2
def addressNone : UInt8 := 0
def addressIpv4 : UInt8 := 1
def addressIpv6 : UInt8 := 2
def addressDns : UInt8 := 3
def capabilityNone : UInt8 := 0
def capabilityTcpConnection : UInt8 := 1
def capabilityTcpListener : UInt8 := 3
def knownRequestFlags : UInt32 := 1

structure WireNetworkRequest where
  magic : UInt32
  version : UInt16
  op : UInt8
  transport : UInt8
  flags : UInt32
  port : UInt16
  nameLen : UInt16
  capability : Nat
  addressKind : UInt8
  reserved : Bytes 7
  endpoint : Bytes 24
deriving DecidableEq

namespace WireNetworkRequest

/-- `&request.endpoint[..name_len]`. -/
def name (request : WireNetworkRequest) : List UInt8 :=
  request.endpoint.toList.take request.nameLen.toNat

/-- `&request.endpoint[..4]`. -/
def ipv4 (request : WireNetworkRequest) : Ipv4 := slice request.endpoint 0 4

end WireNetworkRequest

def allZero (bytes : List UInt8) : Bool := bytes.all (· == 0)

def validNetworkName (name : List UInt8) : Bool :=
  !name.isEmpty && name.head? != some Dns.dot && name.getLast? != some Dns.dot &&
    name.all (fun byte => Dns.isAsciiAlphanumeric byte || byte == Dns.dot || byte == 45) &&
    !(name.zip name.tail).any (fun pair => pair == (Dns.dot, Dns.dot))

def validDestination (request : WireNetworkRequest) : Bool :=
  request.port != 0 &&
    if request.addressKind = addressIpv4 then
      request.nameLen == 0 && allZero (request.endpoint.toList.drop 4)
    else if request.addressKind = addressIpv6 then
      request.nameLen == 0 && allZero (request.endpoint.toList.drop 16)
    else if request.addressKind = addressDns then
      0 < request.nameLen && allZero (request.endpoint.toList.drop request.nameLen.toNat) &&
        validNetworkName request.name
    else false

def namesNothing (request : WireNetworkRequest) : Bool :=
  request.capability != 0 && request.port == 0 && request.nameLen == 0 &&
    request.addressKind == addressNone && allZero request.endpoint.toList

def validNetworkRequest (request : WireNetworkRequest) : Bool :=
  if request.magic ≠ networkMagic ∨ request.version ≠ formatVersion ∨
      request.flags &&& ~~~knownRequestFlags ≠ 0 ∨ ¬ allZero request.reserved.toList ∨
      maxNameBytes < request.nameLen.toNat then false
  else if request.op = opConnect then
    (request.transport == transportTcp || request.transport == transportUdp) &&
      request.capability == 0 && validDestination request
  else if request.op = opListen then
    request.transport == transportTcp && request.capability == 0 && validDestination request
  else if request.op = opResolve then
    request.transport == transportNone && request.capability == 0 && request.port == 0 &&
      request.addressKind == addressDns && 0 < request.nameLen &&
      allZero (request.endpoint.toList.drop request.nameLen.toNat) &&
      validNetworkName request.name
  else if request.op = opSend ∨ request.op = opRecv ∨ request.op = opClose ∨
      request.op = opShutdown then
    request.transport == transportNone && namesNothing request
  else if request.op = opAccept then
    request.transport == transportTcp && namesNothing request
  else false

theorem op_of_validNetworkRequest {request : WireNetworkRequest}
    (hvalid : validNetworkRequest request = true) (hcapability : request.capability ≠ 0) :
    request.op = opSend ∨ request.op = opRecv ∨ request.op = opClose ∨
      request.op = opShutdown ∨ request.op = opAccept := by
  unfold validNetworkRequest at hvalid
  split_ifs at hvalid with _ _ _ _ hacts haccept
  · simp [hcapability] at hvalid
  · simp [hcapability] at hvalid
  · simp [hcapability] at hvalid
  · tauto
  · exact .inr (.inr (.inr (.inr haccept)))

def minBufferBytes : Nat := 2048
def maxBufferBytes : Nat := 65536
def rightConnect : UInt16 := 1
def rightSend : UInt16 := 2
def rightRecv : UInt16 := 4
def rightListen : UInt16 := 8

inductive Role where
  | client
  | listener
deriving DecidableEq

inductive Backend where
  | external
  | loopback
deriving DecidableEq

structure SocketOptions where
  keepaliveMs : Nat
  idleTimeoutMs : Nat
  hopLimit : Nat
  nagle : Bool
  rxBufferBytes : Nat
  txBufferBytes : Nat
deriving DecidableEq

/-- Arithmetic on 32-bit words wraps. -/
def wrap32 (value : Nat) : Nat := value % 2 ^ 32

def SocketOptions.socketBytes (options : SocketOptions) : Nat :=
  wrap32 (options.rxBufferBytes + options.txBufferBytes)

def validBufferBytes (bytes : Nat) : Bool :=
  (2 ^ bytes.log2 == bytes) && minBufferBytes ≤ bytes && bytes ≤ maxBufferBytes

def SocketOptions.Valid (options : SocketOptions) : Prop :=
  validBufferBytes options.rxBufferBytes = true ∧ validBufferBytes options.txBufferBytes = true

structure Application where
  holderIdentity : Holder
  allowedPeerIdentity : Holder
  admittedPeerIpv4 : Ipv4
  localIpv4 : Ipv4
  localPort : UInt16
  rights : UInt16
  role : Role
  backend : Backend
  backlog : Nat
  acceptedSocketLimit : Nat
  byteBudget : Nat
  timerBudget : Nat
  queueDepth : Nat
  retryLimit : Nat
  options : SocketOptions
  valid : options.Valid
deriving DecidableEq

abbrev NetworkApplications := List Application

def byHolder (applications : NetworkApplications) (holder : Holder) : Option Application :=
  applications.find? fun entry => entry.holderIdentity == holder

inductive Transport where
  | tcp
  | udp
deriving DecidableEq

inductive Address where
  | ipv4 (address : Ipv4)
  | ipv6 (address : Bytes 16)
  | dns (name : List UInt8)
deriving DecidableEq

inductive Right where
  | connect
  | send
  | recv
  | listen
deriving DecidableEq

def Right.bit : Right → UInt16
  | .connect => rightConnect
  | .send => rightSend
  | .recv => rightRecv
  | .listen => rightListen

structure Destination where
  holderIdentity : Holder
  transport : Transport
  address : Address
  port : UInt16
  rights : UInt16
  queueDepth : Nat
  byteBudget : Nat
  timerBudget : Nat
  retryLimit : Nat
  socketLimit : Nat
  dnsRecordLimit : Nat
deriving DecidableEq

def maxDestinations : Nat := 128

/-- A decoded table: the decoder refuses more rows than the format admits. -/
structure NetworkDestinations where
  rows : List Destination
  bound : rows.length ≤ maxDestinations

namespace NetworkDestinations

def destination (destinations : NetworkDestinations) (index : Nat) : Option Destination :=
  destinations.rows[index]?

def authorizes (destinations : NetworkDestinations) (holder : Holder) (transport : Transport)
    (address : Address) (port : UInt16) (right : Right) : Bool :=
  destinations.rows.any fun entry =>
    entry.holderIdentity == holder && entry.transport == transport && entry.address == address &&
      entry.port == port && entry.rights &&& right.bit != 0

end NetworkDestinations

end SlimeOs.Network
