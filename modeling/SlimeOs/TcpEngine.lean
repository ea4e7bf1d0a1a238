import SlimeOs.TcpState

/-!
The operations of the network service's TCP engine, in the order of the source. An operation is
a call on the engine; a call fails only where an `expect` of the source would.
-/

namespace SlimeOs.Tcp

open ByteLayout FallibleCall Network

namespace Engine

def children (e : Engine) (listener : Nat) : Nat :=
  (List.finRange socketCount).countP fun index =>
    (e.connections index).any fun connection => connection.listener == some listener

/-- `listener` is the entry at `index`, which every caller has just read or written. -/
def armListener (e : Engine) (stack : Stack) (index : Index) (listener : Listener) :
    Bool × Engine :=
  let children := e.children listener.id
  if !listener.active ∨ listener.socket.isSome ∨ listener.acceptedLimit ≤ children ∨
      listener.timerBudget < children + 1 ∨ listener.queueDepth < children + 1 ∨
      listener.byteBudget < wrap32 ((children + 1) * listener.options.socketBytes) then
    (false, e)
  else
    match e.freeSocket with
    | none => (false, e)
    | some slot =>
      match e.shape slot listener.options with
      | (false, e) => (false, e)
      | (true, e) =>
        let e := e.note .listening slot
        match stack.listen (e.socketAt slot) ⟨listener.address, listener.port⟩ with
        | none => (false, e)
        | some socket =>
          (true,
            (e.setSocket slot (e.smoltcp.apply socket listener.options)).setListener index
              (some { listener with socket := some slot, retries := 0, sentEnd := none }))

/-- The entry of a listener whose socket has closed names it no longer. -/
def disarmed (e : Engine) (listener : Listener) : Listener :=
  if listener.socket.any fun slot => (e.socketAt slot).state == .closed then
    { listener with socket := none }
  else listener

def refreshListener (e : Engine) (stack : Stack) (index : Index) : Engine :=
  match e.listeners index with
  | none => e
  | some listener =>
    let refreshed := e.disarmed listener
    let e := e.setListener index (some refreshed)
    if !listener.active ∧ e.children listener.id = 0 then e.setListener index none
    else (e.armListener stack index refreshed).2

def refreshListeners (e : Engine) (stack : Stack) : Engine :=
  (List.finRange socketCount).foldl (fun e index => e.refreshListener stack index) e

def tick (e : Engine) (stack : Stack) (now : Instant) : Engine :=
  let resets := fun index => (e.resets index).filter fun reset => now < reset.deadline
  { e with lastNow := now, resets := resets }.refreshListeners stack

def findListener (e : Engine) (test : Listener → Bool) : Option (Index × Listener) :=
  (List.finRange socketCount).findSome? fun index =>
    (e.listeners index).bind fun listener => if test listener then some (index, listener) else none

def admits (e : Engine) (peer : Peer) (near far : Option IpEndpoint) : Bool :=
  match peer with
  | .address address => far.any fun far => far.addr == address
  | .holder holder =>
    (List.finRange socketCount).any fun index =>
      ((e.connections index).any fun connection => connection.holder == holder) &&
        (e.socketAt index).localEndpoint == far && (e.socketAt index).remoteEndpoint == near

def firstVacant (e : Engine) : Option Index :=
  (List.finRange socketCount).find? fun index => (e.listeners index).isNone

/-- The peer a listener of this row admits, unless the interface does not own its address. -/
def peerOf (stack : Stack) (policy : Application) : Option Peer :=
  match policy.backend with
  | .loopback => some (.holder policy.allowedPeerIdentity)
  | .external =>
    if stack.hasIpAddr policy.localIpv4 then some (.address policy.admittedPeerIpv4) else none

def listenerOf (holder : Holder) (policy : Application) (peer : Peer) (id : Nat) : Listener where
  id := id
  holder := holder
  peer := peer
  address := policy.localIpv4
  port := policy.localPort
  rights := policy.rights
  acceptedLimit := policy.acceptedSocketLimit
  byteBudget := policy.byteBudget
  timerBudget := policy.timerBudget
  queueDepth := policy.queueDepth
  retryLimit := policy.retryLimit
  options := policy.options
  socket := none
  active := true
  retries := 0
  sentEnd := none

def listenPermitted (e : Engine) (holder : Holder) (policy : Application)
    (request : WireNetworkRequest) : Bool :=
  policy.holderIdentity == holder && policy.role == .listener && policy.backend == e.backend &&
    policy.backlog == 1 && policy.rights &&& rightListen != 0 &&
    request.transport == transportTcp && request.addressKind == addressIpv4 &&
    request.ipv4 == policy.localIpv4 && request.port == policy.localPort

/-- The listener is entered, armed, and withdrawn again when no socket can be had. -/
def openListener (e : Engine) (stack : Stack) (holder : Holder) (policy : Application)
    (peer : Peer) : Reply × Engine :=
  match e.firstVacant with
  | none => (fail .exhausted, e)
  | some index =>
    match e.nextSerial with
    | none => (fail .exhausted, e)
    | some serial =>
      let listener := listenerOf holder policy peer (e.idOf serial)
      let e := { e with serial := serial }.setListener index (some listener)
      match e.armListener stack index listener with
      | (false, e) => (fail .exhausted, e.setListener index none)
      | (true, e) =>
        (.complete
          { Completion.ofStatus .success with
            capability := listener.id
            capabilityKind := capabilityTcpListener }, e)

def listen (stack : Stack) (holder : Holder) (policy : Application)
    (request : WireNetworkRequest) (now : Instant) : Call Engine Empty Reply := fun e =>
  let e := { e with lastNow := now }
  if !validNetworkRequest request ∨ request.op ≠ opListen then (.ok (fail .malformed), e)
  else if !e.listenPermitted holder policy request then (.ok (fail .denied), e)
  else
    match peerOf stack policy with
    | none => (.ok (fail .denied), e)
    | some peer =>
      let e := e.refreshListeners stack
      if (e.findListener fun listener =>
          listener.address == policy.localIpv4 && listener.port == policy.localPort).isSome then
        (.ok (fail .exhausted), e)
      else
        let answer := e.openListener stack holder policy peer
        (.ok answer.1, answer.2)

def acceptedConnection (holder : Holder) (listener : Listener) (id : Nat) (now : Instant)
    (endpoints : Option (IpEndpoint × IpEndpoint)) : Connection where
  id := id
  holder := holder
  destination := 2 ^ 64 - 1
  rights := listener.rights
  phase := .connected
  listener := some listener.id
  shutdown := false
  options := listener.options
  deadline := now + operationTimeout
  retryLimit := listener.retryLimit
  retries := listener.retries
  sentEnd := listener.sentEnd
  terminal := none
  peerFinSeen := false
  closeQueues := (0, 0)
  endpoints := endpoints

/-- `accept` once the listener has been refreshed. -/
def acceptFrom (e : Engine) (stack : Stack) (holder : Holder) (index : Index)
    (listener : Listener) (now : Instant) : Reply × Engine :=
  match listener.socket with
  | none => (fail .wouldBlock, e)
  | some slot =>
    let socket := e.socketAt slot
    if !socket.isOpen then (fail .wouldBlock, e)
    else if !e.admits listener.peer socket.localEndpoint socket.remoteEndpoint then
      (fail .denied, e)
    else
      match e.nextSerial with
      | none => (fail .exhausted, e)
      | some serial =>
        let id := e.idOf serial
        let waiting := { listener with socket := none }
        let e := { e with serial := serial }
        let e := e.setConnection slot
          (some (acceptedConnection holder listener id now socket.endpoints))
        let e := (e.setListener index (some waiting)).recordOpen slot holder
        (.complete
          { Completion.ofStatus .success with
            capability := id
            capabilityKind := capabilityTcpConnection },
          (e.armListener stack index waiting).2)

def accept (stack : Stack) (holder : Holder) (listenerId : Nat) (now : Instant) :
    Call Engine Empty Reply := fun e =>
  let e := { e with lastNow := now }
  match e.findListener fun listener =>
      listener.id == listenerId && listener.holder == holder && listener.active with
  | none => (.ok (fail .denied), e)
  | some (index, _) =>
    let e := e.refreshListeners stack
    match e.listeners index with
    | none => (.error .panicked, e)
    | some listener =>
      let answer := e.acceptFrom stack holder index listener now
      (.ok answer.1, answer.2)

def find (e : Engine) (holder : Holder) (capability : Nat) : Option (Index × Connection) :=
  (List.finRange socketCount).findSome? fun index =>
    (e.connections index).bind fun connection =>
      if connection.id == capability && connection.holder == holder then some (index, connection)
      else none

def charged (e : Engine) (destination : Nat) : Nat :=
  (List.finRange socketCount).countP fun index =>
    (e.connections index).any fun connection => connection.destination == destination

def destinationFor (destinations : NetworkDestinations) (holder : Holder)
    (requested : Address) (port : UInt16) : Option (Nat × Destination) :=
  destinations.rows.zipIdx.findSome? fun (destination, index) =>
    if destination.holderIdentity == holder && destination.transport == .tcp &&
        destination.address == requested && destination.port == port &&
        destination.rights &&& rightConnect != 0 then some (index, destination)
    else none

def connectionOf (holder : Holder) (destinationIndex : Nat) (destination : Destination)
    (options : SocketOptions) (phase : Phase) (id : Nat) (now : Instant)
    (endpoints : Option (IpEndpoint × IpEndpoint)) : Connection where
  id := id
  holder := holder
  destination := destinationIndex
  rights := destination.rights
  phase := phase
  listener := none
  shutdown := false
  options := options
  deadline := now + operationTimeout
  retryLimit := destination.retryLimit
  retries := 0
  sentEnd := none
  terminal := none
  peerFinSeen := false
  closeQueues := (0, 0)
  endpoints := endpoints

/-- The lookup of a name, started for the connection at `index`. -/
def startLookup (e : Engine) (stack : Stack) (request : WireNetworkRequest) (index : Index)
    (id : Nat) (now : Instant) (resolver : Resolver) : Reply × Engine :=
  match stack.start resolver request.name now with
  | (some status, resolver) =>
    (fail status, { e with resolver := some resolver }.setConnection index none)
  | (none, resolver) =>
    (.pending id,
      { e with
        resolver := some resolver
        nameConnect := some
          { index := index
            port := request.port
            addresses := []
            next := 0
            deadline := now + seconds 15
            expiry := now
            starter := id } })

/-- A connection by name takes the socket and asks the resolver. -/
def connectNamed (e : Engine) (stack : Stack) (holder : Holder) (request : WireNetworkRequest)
    (now : Instant) (options : SocketOptions) (row : Nat × Destination) (resolver : Resolver)
    (index : Index) (serial : Nat) : Reply × Engine :=
  let e := e.setSocket index (e.smoltcp.apply (e.socketAt index) options)
  let id := e.idOf serial
  let e := { e with serial := serial }.setConnection index
    (some (connectionOf holder row.1 row.2 options .resolving id now none))
  e.startLookup stack request index id now resolver

/-- A connection by address dials at once, from a port nobody uses. -/
def connectNumeric (e : Engine) (stack : Stack) (holder : Holder) (request : WireNetworkRequest)
    (now : Instant) (options : SocketOptions) (row : Nat × Destination) (index : Index)
    (serial : Nat) : Reply × Engine :=
  match e.ephemeralPort with
  | none => (fail .exhausted, e)
  | some port =>
    let e := e.note .connected index
    match stack.connect (e.socketAt index) ⟨request.ipv4, request.port⟩ port with
    | none => (fail .refused, e)
    | some socket =>
      let socket := e.smoltcp.apply socket options
      let e := { e.setSocket index socket with nextPort := nextPortAfter port }
      let e := e.recordOpen index holder
      let id := e.idOf serial
      (.pending id,
        { e with serial := serial }.setConnection index
          (some (connectionOf holder row.1 row.2 options .connecting id now socket.endpoints)))

def connect (e : Engine) (stack : Stack) (destinations : NetworkDestinations) (holder : Holder)
    (request : WireNetworkRequest) (now : Instant) (options : SocketOptions) : Reply × Engine :=
  if request.transport ≠ transportTcp ∨
      (request.addressKind ≠ addressIpv4 ∧ request.addressKind ≠ addressDns) then
    (fail .unsupported, e)
  else
    let named := request.addressKind == addressDns
    let requested := if named then Address.dns request.name else Address.ipv4 request.ipv4
    match destinationFor destinations holder requested request.port with
    | none => (fail .denied, e)
    | some row =>
      if named ∧ (row.2.dnsRecordLimit = 0 ∨ e.resolver.isNone) then (fail .unsupported, e)
      else if named ∧ e.nameConnect.isSome then (fail .exhausted, e)
      else
        let charged := e.charged row.1
        if row.2.socketLimit ≤ charged ∨ row.2.queueDepth ≤ charged ∨
            row.2.timerBudget ≤ charged ∨
            row.2.byteBudget < wrap32 ((charged + 1) * options.socketBytes) then
          (fail .exhausted, e)
        else
          match e.freeSocket with
          | none => (fail .exhausted, e)
          | some index =>
            match e.shape index options with
            | (false, e) => (fail .exhausted, e)
            | (true, e) =>
              match e.nextSerial with
              | none => (fail .exhausted, e)
              | some serial =>
                match named, e.resolver with
                | true, some resolver =>
                  e.connectNamed stack holder request now options row resolver index
                    serial
                | _, _ =>
                  e.connectNumeric stack holder request now options row index serial

/-- A close: unread bytes make it an abort, and otherwise it waits for the peer. -/
def closeConnection (e : Engine) (stack : Stack) (index : Index) (connection : Connection)
    (now : Instant) : Reply × Engine :=
  let socket := e.socketAt index
  if connection.terminal.isNone ∧ socket.recvQueue ≠ 0 then
    let e := (e.abortSocket index).setConnection index none
    (fail .success,
      if connection.listener.isSome then
        e.record (.acceptedClose socket.recvQueue socket.sendQueue .reset (e.socketBytes index))
      else e)
  else
    (.pending connection.id,
      (e.setSocket index (stack.close socket)).setConnection index
        (some
          { connection with
            phase := .closing
            peerFinSeen := socket.state == .closeWait || socket.state == .lastAck
            deadline := now + operationTimeout
            closeQueues := (socket.recvQueue, socket.sendQueue) }))

def shutdownConnection (e : Engine) (stack : Stack) (index : Index) (connection : Connection) :
    Reply × Engine :=
  (fail .success,
    if !connection.shutdown then
      (e.setSocket index (stack.close (e.socketAt index))).setConnection index
        (some { connection with shutdown := true })
    else e)

def send (e : Engine) (stack : Stack) (index : Index) (payload : List UInt8) : Reply × Engine :=
  let socket := e.socketAt index
  if !stack.maySend socket then (fail .reset, e)
  else if !payload.isEmpty ∧ !stack.canSend socket then (fail .wouldBlock, e)
  else
    match stack.sendSlice socket payload with
    | none => (fail .reset, e)
    | some (count, socket) =>
      (.complete { Completion.ofStatus .success with transferred := count },
        e.setSocket index socket)

def recv (e : Engine) (stack : Stack) (index : Index) (payload : List UInt8) : Reply × Engine :=
  let socket := e.socketAt index
  if stack.canRecv socket then
    match stack.recvSlice socket payload.length with
    | none => (fail .reset, e)
    | some (count, socket) =>
      (.complete
        { Completion.ofStatus .success with
          transferred := count
          eof := !stack.mayRecv socket && socket.state != .closed },
        e.setSocket index socket)
  else if socket.state = .closed then (fail .reset, e)
  else if !stack.mayRecv socket then
    (.complete { Completion.ofStatus .success with eof := true }, e)
  else if !payload.isEmpty then (fail .wouldBlock, e)
  else (fail .success, e)

def requiredRight (op : UInt8) : UInt16 :=
  if op = opSend then rightSend else if op = opRecv then rightRecv else 0

def serve (e : Engine) (stack : Stack) (request : WireNetworkRequest) (payload : List UInt8)
    (now : Instant) (index : Index) (connection : Connection) : Reply × Engine :=
  if connection.rights &&& requiredRight request.op ≠ requiredRight request.op then
    (fail .denied, e)
  else if connection.phase ≠ .connected then (fail .wouldBlock, e)
  else if request.op = opClose then e.closeConnection stack index connection now
  else
    match connection.terminal with
    | some status => (fail status, e)
    | none =>
      if request.op = opShutdown then e.shutdownConnection stack index connection
      else if request.op = opSend ∧ connection.shutdown then (fail .refused, e)
      else if request.op = opSend then e.send stack index payload
      else e.recv stack index payload

def handleWith (e : Engine) (stack : Stack) (destinations : NetworkDestinations)
    (holder : Holder) (request : WireNetworkRequest) (payload : List UInt8) (now : Instant)
    (options : SocketOptions) : Reply × Engine :=
  let e := { e with lastNow := now }
  if !validNetworkRequest request then (fail .malformed, e)
  else if request.op = opConnect then e.connect stack destinations holder request now options
  else if request.op ≠ opSend ∧ request.op ≠ opRecv ∧ request.op ≠ opClose ∧
      request.op ≠ opShutdown then (fail .unsupported, e)
  else
    match e.find holder request.capability with
    | none => (fail .denied, e)
    | some (index, connection) => e.serve stack request payload now index connection

def handle (stack : Stack) (destinations : NetworkDestinations) (holder : Holder)
    (request : WireNetworkRequest) (payload : List UInt8) (now : Instant) :
    Call Engine Empty Reply := fun e =>
  let answer := e.handleWith stack destinations holder request payload now defaultOptions
  (.ok answer.1, answer.2)

/-- What a connection over the loopback interface has to pass before it is opened. -/
def refuseLocal (e : Engine) (stack : Stack) (destinations : NetworkDestinations)
    (applications : NetworkApplications) (holder : Holder) (request : WireNetworkRequest)
    (policy : Application) : Option Status × Engine :=
  if policy.role ≠ .client ∨ request.transport ≠ transportTcp ∨
      request.addressKind ≠ addressIpv4 then (some .denied, e)
  else
    match applications.find? fun listener =>
        listener.role == .listener && listener.localIpv4 == request.ipv4 &&
          listener.localPort == request.port && listener.allowedPeerIdentity == holder with
    | none => (some .denied, e)
    | some listenerPolicy =>
      if !destinations.authorizes holder .tcp (.ipv4 listenerPolicy.localIpv4) request.port
          .connect then (some .denied, e)
      else
        let e := e.refreshListeners stack
        match e.findListener fun listener =>
            listener.active && listener.holder == listenerPolicy.holderIdentity &&
              listener.address == listenerPolicy.localIpv4 &&
              listener.port == listenerPolicy.localPort with
        | none => (some .refused, e)
        | some (_, listener) =>
          let listening := listener.socket.any fun slot =>
            (e.socketAt slot).state == .listen
          let dialled := (List.finRange socketCount).any fun slot =>
            ((e.connections slot).any fun connection => connection.phase == .connecting) &&
              (e.socketAt slot).remoteEndpoint == some ⟨listener.address, listener.port⟩
          if !listening ∨ dialled then (some .exhausted, e) else (none, e)

/-- The holder closes its listener: accepted connections stay, the listening socket goes. -/
def closeListener (e : Engine) (stack : Stack) (index : Index) (listener : Listener) : Engine :=
  let e := e.setListener index (some { listener with active := false, socket := none })
  let e := listener.socket.elim e fun slot => e.abortSocket slot
  (e.record (.listenerClosed (e.children listener.id))).refreshListeners stack

def handleLocal (stack : Stack) (destinations : NetworkDestinations)
    (applications : NetworkApplications) (holder : Holder) (request : WireNetworkRequest)
    (payload : List UInt8) (now : Instant) : Call Engine Empty Reply := fun e =>
  let e := { e with lastNow := now }
  if !validNetworkRequest request then (.ok (fail .malformed), e)
  else
    match (byHolder applications holder).filter fun policy => policy.backend == e.backend with
    | none => (.ok (fail .denied), e)
    | some policy =>
      if request.op = opListen then listen stack holder policy request now e
      else if request.op = opAccept then accept stack holder request.capability now e
      else if request.op = opConnect ∧ e.loopback then
        match e.refuseLocal stack destinations applications holder request policy with
        | (some status, e) => (.ok (fail status), e)
        | (none, e) =>
          let answer :=
            e.handleWith stack destinations holder request payload now policy.options
          (.ok answer.1, answer.2)
      else if request.op = opClose then
        match e.findListener fun listener =>
            listener.active && listener.id == request.capability &&
              listener.holder == holder with
        | some (index, listener) => (.ok (fail .success), e.closeListener stack index listener)
        | none =>
          let answer :=
            e.handleWith stack destinations holder request payload now policy.options
          (.ok answer.1, answer.2)
      else
        let answer := e.handleWith stack destinations holder request payload now policy.options
        (.ok answer.1, answer.2)

/-- How a pending operation stands: still pending, connected, or settled with a status. -/
inductive Verdict where
  | waiting
  | established
  | settled (status : Status)
deriving DecidableEq

def verdict (connection : Connection) (state : State) (now : Instant) : Verdict :=
  match connection.phase, connection.terminal with
  | .resolving, some status => .settled status
  | .connecting, some status => .settled status
  | .closing, some status => .settled status
  | .connecting, none =>
    if state = .established ∨ state = .closeWait then .established
    else if connection.deadline ≤ now then .settled .timeout
    else if state = .closed then .settled .refused
    else .waiting
  | .closing, none =>
    if state = .timeWait then .settled .success
    else if state = .closed then
      if connection.peerFinSeen then .settled .success else .settled .reset
    else if connection.deadline ≤ now then .settled .timeout
    else .waiting
  | .resolving, none => .waiting
  | .connected, _ => .waiting

def terminalOf (status : Status) (state : State) : Terminal :=
  match status, state with
  | .success, .timeWait => .timeWait
  | .success, _ => .closed
  | .timeout, _ => .timeout
  | _, _ => .reset

/-- The connection is over: its socket is aborted unless it closed in order. -/
def settle (e : Engine) (index : Index) (connection : Connection) (status : Status) : Engine :=
  let state := (e.socketAt index).state
  let e := if status ≠ .success then e.abortSocket index else e
  let e :=
    if connection.phase = .closing ∧ connection.listener.isSome then
      e.record (.acceptedClose connection.closeQueues.1 connection.closeQueues.2
        (terminalOf status state) (e.socketBytes index))
    else e
  let e :=
    if status = .timeout ∧ e.timeoutReclaimed.length < socketCount then
      { e with timeoutReclaimed := e.timeoutReclaimed ++ [e.socketBytes index] }
    else e
  e.setConnection index none

def pollPending (holder : Holder) (capability : Nat) (now : Instant) :
    Call Engine Empty (Option Completion) := fun e =>
  let e := { e with lastNow := now }
  match e.find holder capability with
  | none => (.ok (some (.ofStatus .denied)), e)
  | some (index, connection) =>
    if e.nameConnect.any fun pending => pending.index == index then (.ok none, e)
    else
      match verdict connection (e.socketAt index).state now with
      | .waiting => (.ok none, e)
      | .established =>
        (.ok (some
          { Completion.ofStatus .success with
            capability := capability
            capabilityKind := capabilityTcpConnection }),
          e.setConnection index (some { connection with phase := .connected }))
      | .settled status => (.ok (some (.ofStatus status)), e.settle index connection status)

def cancelDns (e : Engine) : Engine :=
  { e with nameConnect := none, resolver := e.resolver.map Resolver.cancel }

def failDns (e : Engine) (index : Index) (status : Status) : Engine :=
  let e := e.cancelDns.abortSocket index
  match e.connections index with
  | some connection => e.setConnection index (some { connection with terminal := some status })
  | none => e

/-- What is reported of an attempt; a name that does not fit is a failure. -/
def observation (destinations : NetworkDestinations) (connection : Connection)
    (pending : NameConnect) (answer : Option Dns.Answer) (selected : Ipv4)
    (before : Option DnsObservation) : Option (Option DnsObservation) :=
  match destinations.destination connection.destination with
  | some destination =>
    match destination.address with
    | .dns name =>
      if name.length ≤ maxNameBytes then
        some (some
          { name := name
            addresses := pending.addresses
            count := answer.elim 0 fun answer => answer.addresses.length
            ttlSeconds := answer.elim 0 Dns.Answer.ttlSeconds
            selected := selected
            attempt := pending.next + 1
            port := pending.port })
      else none
    | _ => some before
  | none => some before

/-- The next address of the answer is tried, on the socket the connection already has. -/
def redial (stack : Stack) (destinations : NetworkDestinations) (now : Instant)
    (pending : NameConnect) (connection : Connection) (answer : Option Dns.Answer) :
    Call Engine Empty Unit := fun e =>
  if pending.next = pending.addresses.length then (.ok (), e.failDns pending.index .refused)
  else
    match pending.addresses[pending.next]? with
    | none => (.error .panicked, e)
    | some address =>
      let e := e.setSocket pending.index (e.smoltcp.abort (e.socketAt pending.index))
      let e := { e with resets := Function.update e.resets pending.index none }
      match e.ephemeralPort with
      | none => (.ok (), e.failDns pending.index .exhausted)
      | some port =>
        match stack.connect (e.socketAt pending.index) ⟨address, pending.port⟩ port with
        | none => (.ok (), e.failDns pending.index .refused)
        | some socket =>
          let socket := e.smoltcp.setTimeout (e.smoltcp.apply socket connection.options)
            (some (seconds 2))
          let e := { e.setSocket pending.index socket with nextPort := nextPortAfter port }
          let e := e.recordOpen pending.index connection.holder
          match observation destinations connection pending answer address
              e.dnsObservation with
          | none => (.ok (), e.failDns pending.index .denied)
          | some observed =>
            (.ok (),
              { e with
                dnsObservation := observed
                nameConnect := some { pending with next := pending.next + 1 } }.setConnection
                pending.index
                (some
                  { connection with
                    phase := .connecting
                    deadline := now + seconds 2
                    terminal := none
                    sentEnd := none
                    endpoints := socket.endpoints }))

/-- Every address has to be public, or declared to the holder under the controlled resolver. -/
def addressesPermitted (destinations : NetworkDestinations) (connection : Connection)
    (pending : NameConnect) (controlled : Bool) (addresses : List Ipv4) : Bool :=
  addresses.all fun address =>
    Dns.isPublicAddress address ||
      (controlled && destinations.authorizes connection.holder .tcp (.ipv4 address) pending.port
        .connect)

def advanceResolving (stack : Stack) (destinations : NetworkDestinations) (now : Instant)
    (pending : NameConnect) (connection : Connection) : Call Engine Empty Unit := fun e =>
  match e.resolver with
  | none => (.error .panicked, e)
  | some resolver =>
    match stack.poll resolver now with
    | (none, resolver) => (.ok (), { e with resolver := some resolver })
    | (some result, resolver) =>
      let e := { e with resolver := some resolver.cancel }
      match result with
      | .error status => (.ok (), e.failDns pending.index status)
      | .ok answer =>
        match destinations.destination connection.destination with
        | none => (.ok (), e.failDns pending.index .denied)
        | some destination =>
          if answer.ttlSeconds = 0 ∨
              destination.dnsRecordLimit < answer.addresses.length then
            (.ok (), e.failDns pending.index .denied)
          else if !addressesPermitted destinations connection pending resolver.controlled
              answer.addresses then (.ok (), e.failDns pending.index .denied)
          else
            match (answer.expiresAtMillis (now / 1000)).filter (· < 2 ^ 63) with
            | none => (.ok (), e.failDns pending.index .timeout)
            | some expiry =>
              redial stack destinations now
                { pending with
                  addresses := answer.addresses
                  expiry := min (millis expiry) (now + seconds 60) }
                connection (some answer) e

def advanceConnecting (stack : Stack) (destinations : NetworkDestinations) (now : Instant)
    (pending : NameConnect) (connection : Connection) : Call Engine Empty Unit := fun e =>
  let socket := e.socketAt pending.index
  if socket.isOpen ∧ connection.terminal.isNone then
    (.ok (),
      { e.setSocket pending.index
          (e.smoltcp.setTimeout socket (some (millis connection.options.idleTimeoutMs))) with
        nameConnect := none })
  else if connection.terminal.isNone ∧ socket.state ≠ .closed ∧ now < connection.deadline then
    (.ok (), e)
  else redial stack destinations now pending connection none e

def advanceDns (stack : Stack) (destinations : NetworkDestinations) (now : Instant) :
    Call Engine Empty Unit := fun e =>
  let e := { e with lastNow := now }
  match e.nameConnect with
  | none => (.ok (), e)
  | some pending =>
    match e.connections pending.index with
    | none => (.ok (), e.cancelDns)
    | some connection =>
      if pending.deadline ≤ now ∨ (pending.addresses ≠ [] ∧ pending.expiry ≤ now) then
        (.ok (), e.failDns pending.index .timeout)
      else if connection.phase = .resolving then
        advanceResolving stack destinations now pending connection e
      else advanceConnecting stack destinations now pending connection e

/-- The resolver is enabled once, if the socket storage has room for it. -/
def enableDns (e : Engine) (resolver : Except Status Resolver) : Except Status Unit × Engine :=
  if e.resolver.isSome ∨ !e.dnsCapacity then (.error .denied, e)
  else
    match resolver with
    | .ok resolver => (.ok (), { e with resolver := some resolver })
    | .error status => (.error status, e)

def carries (e : Engine) (segment : Segment) (index : Index) : Bool :=
  (e.socketAt index).localEndpoint == some segment.source &&
    (e.socketAt index).remoteEndpoint == some segment.destination

def segmentLength (segment : Segment) : Nat :=
  segment.payload.length + segment.syn.toNat + segment.fin.toNat

def segmentEnd (segment : Segment) : TcpSeqNumber :=
  segment.seqNumber + BitVec.ofNat 32 (segmentLength segment)

/-- A refusal leaves only for the admitted peer of an external listener, where no socket was
armed to take its attempt. -/
def permitRefusal (e : Engine) (segment : Segment) : Bool × Engine :=
  let known := (List.finRange socketCount).any (e.carries segment)
  let awaited := (e.findListener fun listener =>
    listener.active && listener.peer == .address segment.destination.addr &&
      listener.address == segment.source.addr && listener.port == segment.source.port).isSome
  -- the count wraps, as an unchecked addition of a released build
  if segment.ack ∧ !known ∧ awaited then
    (true, { e with excessRefusals := e.excessRefusals + 1 })
  else (false, e)

/-- A reset leaves only for a connection the engine aborted, for one that timed out, or to
refuse an admitted peer. -/
def permitReset (e : Engine) (segment : Segment) : Bool × Engine :=
  if !segment.payload.isEmpty ∨ segment.syn ∨ segment.fin then (false, e)
  else
    match (List.finRange socketCount).find? fun index =>
        (e.resets index).any fun reset =>
          reset.near == segment.source && reset.far == segment.destination with
    | some index => (true, { e with resets := Function.update e.resets index none })
    | none =>
      match (List.finRange socketCount).findSome? fun index =>
          (e.connections index).bind fun connection =>
            if connection.terminal.isNone &&
                (connection.phase == .connected || connection.phase == .closing) &&
                connection.endpoints == some (segment.source, segment.destination) then
              some (index, connection)
            else none with
      | some (index, connection) =>
        if (e.socketAt index).state = .closed then
          (true, e.setConnection index (some { connection with terminal := some .timeout }))
        else e.permitRefusal segment
      | none => e.permitRefusal segment

def permitBacklog (e : Engine) (segment : Segment) (index entry : Index) (listener : Listener) :
    Bool × Engine :=
  if !e.admits listener.peer (some segment.source) (some segment.destination) then (false, e)
  else if segmentLength segment = 0 then (true, e)
  else
    let repeated := listener.sentEnd.any (seqLt segment.seqNumber)
    if repeated ∧ listener.retryLimit ≤ listener.retries then (false, e.abortSocket index)
    else
      (true, e.setListener entry
        (some
          { listener with
            retries := listener.retries + repeated.toNat
            sentEnd := some (listener.sentEnd.elim (segmentEnd segment)
              (seqMax · (segmentEnd segment))) }))

/-- A segment of a connection; what was sent before consumes a retry. -/
def permitSegment (e : Engine) (segment : Segment) (index : Index) (connection : Connection) :
    Bool × Engine :=
  if connection.terminal.isSome then (segment.rst, e)
  else if segmentLength segment = 0 then (true, e)
  else
    let socket := e.socketAt index
    let keepAlive := segment.payload == [0] && !segment.syn && !segment.fin &&
      connection.sentEnd == some (segmentEnd segment) && socket.sendQueue == 0 &&
      socket.keepAlive.isSome
    if keepAlive then (true, e)
    else
      let repeated := connection.sentEnd.any (seqLt segment.seqNumber)
      if repeated ∧ connection.retryLimit ≤ connection.retries then
        (false,
          (e.setConnection index
            (some { connection with terminal := some .timeout })).abortSocket index)
      else
        (true, e.setConnection index
          (some
            { connection with
              retries := connection.retries + repeated.toNat
              sentEnd := some (connection.sentEnd.elim (segmentEnd segment)
                (seqMax · (segmentEnd segment))) }))

def permitTcp (e : Engine) (segment : Segment) : Bool × Engine :=
  if segment.rst then e.permitReset segment
  else
    match (List.finRange socketCount).find? (e.carries segment) with
    | none => (false, e)
    | some index =>
      match e.findListener fun listener => listener.socket == some index with
      | some (entry, listener) => e.permitBacklog segment index entry listener
      | none =>
        match e.connections index with
        | none =>
          ((e.socketAt index).state == .timeWait && segment.payload.isEmpty &&
            !segment.syn && !segment.fin && !segment.rst, e)
        | some connection => e.permitSegment segment index connection

def permitEgress (e : Engine) (stack : Stack) : Frame → Bool × Engine
  | .malformed => (false, e)
  | .other => (true, e)
  | .udp packet =>
    match e.resolver with
    | none => (false, e)
    | some resolver =>
      let answer := stack.permitEgress resolver packet
      (answer.1, { e with resolver := some answer.2 })
  | .tcp segment => e.permitTcp segment

def allocated (e : Engine) : Nat :=
  ((List.finRange socketCount).countP fun index => (e.connections index).isSome) +
    (List.finRange socketCount).countP fun index =>
      (e.listeners index).any fun listener => listener.active

def resetSocket (state : Reclaimed × Engine) (index : Index) : Reclaimed × Engine :=
  let e := state.2
  if e.owned index ∨ (e.resets index).isSome ∨ (e.socketAt index).state ≠ .closed then
    ({ state.1 with
        sockets := state.1.sockets + 1
        bytes := state.1.bytes + e.socketBytes index }, e.abortSocket index)
  else state

def resetAll (e : Engine) (now : Instant) : Reclaimed × Engine :=
  let e := { e with lastNow := now }
  let state := (List.finRange socketCount).foldl resetSocket (⟨e.allocated, 0, 0⟩, e)
  (state.1, { state.2.cancelDns with connections := fun _ => none, listeners := fun _ => none })

/-- The sockets of a holder: those of its connections and those its listeners listen on. -/
def slots (e : Engine) (holder : Holder) (index : Index) : Bool :=
  ((e.connections index).any fun connection => connection.holder == holder) ||
    (List.finRange socketCount).any fun entry =>
      (e.listeners entry).any fun listener =>
        listener.holder == holder && listener.socket == some index

def handles (e : Engine) (holder : Holder) : Nat :=
  ((List.finRange socketCount).countP fun index =>
    (e.connections index).any fun connection => connection.holder == holder) +
  (List.finRange socketCount).countP fun entry =>
    (e.listeners entry).any fun listener => listener.holder == holder && listener.active

/-- The two sockets are the two ends of one loopback connection. -/
def mirrored (e : Engine) (index other : Index) : Bool :=
  match (e.socketAt index).endpoints with
  | some (near, far) =>
    (e.socketAt other).localEndpoint == some far && (e.socketAt other).remoteEndpoint == some near
  | none => false

def markPeers (e : Engine) (slots : Index → Bool) (index : Index) : Engine :=
  { e with
    connections := fun other =>
      (e.connections other).map fun connection =>
        if other ≠ index ∧ !slots other ∧ e.mirrored index other then
          { connection with terminal := some .reset }
        else connection }

def releaseSlot (slots : Index → Bool) (state : Reclaimed × Engine) (index : Index) :
    Reclaimed × Engine :=
  if !slots index then state
  else
    let e := ((state.2.markPeers slots index).abortSocket index).setConnection index none
    ({ state.1 with
        sockets := state.1.sockets + 1
        bytes := state.1.bytes + e.socketBytes index }, e)

def releaseHolder (e : Engine) (holder : Holder) : Reclaimed × Engine :=
  let cancels := e.nameConnect.any fun pending =>
    (e.connections pending.index).any fun connection => connection.holder == holder
  let e := if cancels then e.cancelDns else e
  let state := (List.finRange socketCount).foldl (releaseSlot (e.slots holder))
    (⟨e.handles holder, 0, 0⟩, e)
  (state.1,
    { state.2 with
      listeners := fun entry => (state.2.listeners entry).filter fun listener =>
        listener.holder != holder })

end Engine

end SlimeOs.Tcp
