import Mathlib.Data.Nat.Bitwise
import SlimeOs.TcpRuns

/-!
The ids of the TCP engine. An id is the engine's own name space and a serial number that is used
once; the name spaces of two incarnations or backends do not meet. The ids an engine hands out are
therefore distinct over its whole run and from those of every other engine.
-/

namespace SlimeOs.Tcp

open Except FallibleCall Network Option Table Engine Nat Function
open Table (Step Steps)

variable {backend epoch storage : Nat} {e : Engine}

theorem engineSpace_eq (hepoch : epoch ≤ maxIncarnation) (hbackend : backend ≤ 1) :
    engineSpace epoch backend = 2 ^ 32 * (2 ^ 31 + 2 * epoch + backend) := by
  have hepoch' : epoch < 2 ^ 30 := by
    unfold maxIncarnation at hepoch
    omega
  unfold engineSpace
  rw [Nat.shiftLeft_eq, Nat.shiftLeft_eq, Nat.shiftLeft_eq, Nat.or_assoc,
    show epoch * 2 ^ 33 = 2 ^ 33 * epoch by ring,
    ← Nat.two_pow_add_eq_or_of_lt (show backend * 2 ^ 32 < 2 ^ 33 by omega) epoch,
    ← Nat.two_pow_add_eq_or_of_lt (show 2 ^ 33 * epoch + backend * 2 ^ 32 < 2 ^ 63 by omega) 1]
  ring

theorem or_serial {space serial : Nat} (haligned : 2 ^ 32 ∣ space) (hserial : serial < 2 ^ 32) :
    space ||| serial = space + serial := by
  obtain ⟨high, rfl⟩ := haligned
  exact (two_pow_add_eq_or_of_lt hserial high).symm

namespace Table

/-- Ids are above the name space, were handed out before, and stand in one place; an accepted
connection has its listener's holder and options. -/
structure Named (t : Table) : Prop where
  aligned : 2 ^ 32 ∣ t.nameSpace
  small : t.serial < 2 ^ 32
  grant_bound : ∀ index grant, t.grants index = some grant →
    t.nameSpace < grant.id ∧ grant.id ≤ t.nameSpace + t.serial
  post_bound : ∀ entry post, t.posts entry = some post →
    t.nameSpace < post.id ∧ post.id ≤ t.nameSpace + t.serial
  parent_bound : ∀ index grant parent, t.grants index = some grant →
    grant.listener = some parent → parent ≤ t.nameSpace + t.serial
  grant_unique : ∀ i j grant grant', t.grants i = some grant → t.grants j = some grant' →
    grant.id = grant'.id → i = j
  post_unique : ∀ i j post post', t.posts i = some post → t.posts j = some post' →
    post.id = post'.id → i = j
  apart : ∀ index entry grant post, t.grants index = some grant → t.posts entry = some post →
    grant.id ≠ post.id
  parent : ∀ index entry grant post, t.grants index = some grant → t.posts entry = some post →
    grant.listener = some post.id → grant.holder = post.holder ∧ grant.options = post.options

variable {t t' : Table} {caller : Option Caller}

theorem named_of_empty (haligned : 2 ^ 32 ∣ t.nameSpace) (hsmall : t.serial < 2 ^ 32)
    (hgrants : ∀ index, t.grants index = none) (hposts : ∀ entry, t.posts entry = none) :
    t.Named := by
  have hgrant : ∀ index grant, t.grants index ≠ some grant := by
    intro index grant hsome
    rw [hgrants index] at hsome
    cases hsome
  have hpost : ∀ entry post, t.posts entry ≠ some post := by
    intro entry post hsome
    rw [hposts entry] at hsome
    cases hsome
  constructor
  case aligned => exact haligned
  case small => exact hsmall
  case grant_bound => exact fun index grant h => absurd h (hgrant index grant)
  case post_bound => exact fun entry post h => absurd h (hpost entry post)
  case parent_bound => exact fun index grant _ h => absurd h (hgrant index grant)
  case grant_unique => exact fun index _ grant _ h => absurd h (hgrant index grant)
  case post_unique => exact fun entry _ post _ h => absurd h (hpost entry post)
  case apart => exact fun index _ grant _ h => absurd h (hgrant index grant)
  case parent => exact fun index _ grant _ h => absurd h (hgrant index grant)

theorem Named.nextId_eq (h : t.Named) (hserial : t.serial + 1 < 2 ^ 32) :
    t.nextId = t.nameSpace + (t.serial + 1) := or_serial h.aligned hserial

def SamePost (old new : Post) : Prop :=
  new.id = old.id ∧ new.holder = old.holder ∧ new.options = old.options

def SameGrant (old new : Grant) : Prop :=
  new.id = old.id ∧ new.holder = old.holder ∧ new.options = old.options ∧
    new.listener = old.listener

theorem Named.setPost (h : t.Named) (entry : Index) (post : Option Post)
    (hpost : ∀ new, post = some new → ∃ old, t.posts entry = some old ∧ SamePost old new) :
    (t.setPost entry post).Named := by
  -- An entry after the update is one before it, under the same id.
  have hback : ∀ other new, (t.setPost entry post).posts other = some new →
      ∃ old, t.posts other = some old ∧ SamePost old new := by
    intro other new hnew
    rcases update_eq_some.mp hnew with ⟨rfl, hsome⟩ | ⟨-, hold⟩
    · exact hpost new hsome
    · exact ⟨new, hold, rfl, rfl, rfl⟩
  refine ⟨h.aligned, h.small, h.grant_bound, ?_, h.parent_bound, h.grant_unique, ?_, ?_, ?_⟩
  · intro other new hnew
    obtain ⟨old, hold, hid, -⟩ := hback other new hnew
    rw [hid]
    exact h.post_bound other old hold
  · intro i j new new' hnew hnew' hsame
    obtain ⟨old, hold, hid, -⟩ := hback i new hnew
    obtain ⟨old', hold', hid', -⟩ := hback j new' hnew'
    exact h.post_unique i j old old' hold hold' (by rw [← hid, ← hid', hsame])
  · intro index other grant new hgrant hnew
    obtain ⟨old, hold, hid, -⟩ := hback other new hnew
    rw [hid]
    exact h.apart index other grant old hgrant hold
  intro index other grant new hgrant hnew hlistener
  obtain ⟨old, hold, hid, hholder, hoptions⟩ := hback other new hnew
  rw [hholder, hoptions]
  exact h.parent index other grant old hgrant hold (by rw [hlistener, hid])

theorem Named.setGrant (h : t.Named) (index : Index) (grant : Option Grant)
    (hgrant : ∀ new, grant = some new → ∃ old, t.grants index = some old ∧ SameGrant old new) :
    (t.setGrant index grant).Named := by
  have hback : ∀ other new, (t.setGrant index grant).grants other = some new →
      ∃ old, t.grants other = some old ∧ SameGrant old new := by
    intro other new hnew
    rcases update_eq_some.mp hnew with ⟨rfl, hsome⟩ | ⟨-, hold⟩
    · exact hgrant new hsome
    · exact ⟨new, hold, rfl, rfl, rfl, rfl⟩
  refine ⟨h.aligned, h.small, ?_, h.post_bound, ?_, ?_, h.post_unique, ?_, ?_⟩
  · intro other new hnew
    obtain ⟨old, hold, hid, -⟩ := hback other new hnew
    rw [hid]
    exact h.grant_bound other old hold
  · intro other new parent hnew hlistener
    obtain ⟨old, hold, -, -, -, hsame⟩ := hback other new hnew
    exact h.parent_bound other old parent hold (by rw [← hsame, hlistener])
  · intro i j new new' hnew hnew' hsame
    obtain ⟨old, hold, hid, -⟩ := hback i new hnew
    obtain ⟨old', hold', hid', -⟩ := hback j new' hnew'
    exact h.grant_unique i j old old' hold hold' (by rw [← hid, ← hid', hsame])
  · intro other entry new post hnew hpost
    obtain ⟨old, hold, hid, -⟩ := hback other new hnew
    rw [hid]
    exact h.apart other entry old post hold hpost
  intro other entry new post hnew hpost hlistener
  obtain ⟨old, hold, -, hholder, hoptions, hsame⟩ := hback other new hnew
  rw [hholder, hoptions]
  exact h.parent other entry old post hold hpost (by rw [← hsame, hlistener])

theorem unique_update {α : Type} {f : Index → Option α} {i : Index} {a : α} (id : α → Nat)
    (hunique : ∀ j k b c, f j = some b → f k = some c → id b = id c → j = k)
    (hfresh : ∀ j b, f j = some b → id b ≠ id a) :
    ∀ j k b c, update f i (some a) j = some b → update f i (some a) k = some c →
      id b = id c → j = k := by
  intro j k b c hj
  revert k c
  refine forall_update_some (P := fun j b => ∀ k c, update f i (some a) k = some c →
    id b = id c → j = k) ?_ ?_ j b hj
  · exact forall_update_some (fun _ => rfl) fun k c _ hc hsame => absurd hsame.symm (hfresh k c hc)
  · intro j b _ hb
    exact forall_update_some (fun hsame => absurd hsame (hfresh j b hb))
      fun k c _ hc => hunique j k b c hb hc

theorem Named.declare (h : t.Named) (entry : Index) (post : Post)
    (hserial : t.serial + 1 < 2 ^ 32) (hid : post.id = t.nextId) :
    (t.issue.setPost entry (some post)).Named := by
  rw [h.nextId_eq hserial] at hid
  have hlow : t.nameSpace < t.nameSpace + (t.serial + 1) := by omega
  refine ⟨h.aligned, hserial, ?_, ?_, ?_, h.grant_unique, ?_, ?_, ?_⟩
  · intro index grant hgrant
    have hbound := h.grant_bound index grant hgrant
    exact ⟨hbound.1, le_succ_of_le hbound.2⟩
  · refine forall_update_some ⟨hid ▸ hlow, hid.le⟩ fun other new _ hold => ?_
    have hbound := h.post_bound other new hold
    exact ⟨hbound.1, le_succ_of_le hbound.2⟩
  · intro index grant parent hgrant hlistener
    exact le_succ_of_le (h.parent_bound index grant parent hgrant hlistener)
  · refine unique_update Post.id h.post_unique fun other new hold => ?_
    have hbound := h.post_bound other new hold
    omega
  · intro index other grant new hgrant
    refine forall_update_some ?_ (fun other new _ => h.apart index other grant new hgrant) other new
    have hbound := h.grant_bound index grant hgrant
    omega
  intro index other grant new hgrant
  refine forall_update_some (fun hlistener => ?_)
    (fun other new _ => h.parent index other grant new hgrant) other new
  have hbound := h.parent_bound index grant post.id hgrant hlistener
  omega

/-- A connection is entered under an id nobody has had, as its listener's child if it has one. -/
theorem Named.enter (h : t.Named) (index : Index) (grant : Grant)
    (hserial : t.serial + 1 < 2 ^ 32) (hid : grant.id = t.nextId)
    (hparent : ∀ parent, grant.listener = some parent → ∃ entry post, t.posts entry = some post ∧
      post.id = parent ∧ grant.holder = post.holder ∧ grant.options = post.options) :
    (t.issue.setGrant index (some grant)).Named := by
  rw [h.nextId_eq hserial] at hid
  have hlow : t.nameSpace < t.nameSpace + (t.serial + 1) := by omega
  refine ⟨h.aligned, hserial, ?_, ?_, ?_, ?_, h.post_unique, ?_, ?_⟩
  · refine forall_update_some ⟨hid ▸ hlow, hid.le⟩ fun other new _ hold => ?_
    have hbound := h.grant_bound other new hold
    exact ⟨hbound.1, le_succ_of_le hbound.2⟩
  · intro entry post hpost
    have hbound := h.post_bound entry post hpost
    exact ⟨hbound.1, le_succ_of_le hbound.2⟩
  · intro other new parent
    refine forall_update_some (fun hlistener => ?_)
      (fun other new _ hold hlistener =>
        le_succ_of_le (h.parent_bound other new parent hold hlistener)) other new
    obtain ⟨entry, post, hpost, rfl, -⟩ := hparent parent hlistener
    exact le_succ_of_le (h.post_bound entry post hpost).2
  · refine unique_update Grant.id h.grant_unique fun other new hold => ?_
    have hbound := h.grant_bound other new hold
    omega
  · intro other entry new post hnew hpost
    refine forall_update_some ?_
      (fun other new _ hold => h.apart other entry new post hold hpost) other new hnew
    have hbound := h.post_bound entry post hpost
    omega
  · intro other entry new post hnew hpost
    refine forall_update_some ?_
      (fun other new _ hold => h.parent other entry new post hold hpost) other new hnew
    intro hlistener
    obtain ⟨entry', post', hpost', hid', hholder, hoptions⟩ := hparent post.id hlistener
    obtain rfl := h.post_unique entry' entry post' post hpost' hpost hid'
    obtain rfl := mem_unique hpost' hpost
    exact ⟨hholder, hoptions⟩

theorem named_step (h : t.Named) (hstep : Step caller t t') : t'.Named := by
  cases hstep with
  | take use hclean | rebuild index shape hfree hrx htx | begin pending grant | forget | enable =>
    exact ⟨h.aligned, h.small, h.grant_bound, h.post_bound, h.parent_bound, h.grant_unique,
      h.post_unique, h.apart, h.parent⟩
  | arm entry index post hpost | disarm entry post hpost | retire entry post hpost =>
    exact h.setPost entry _ fun new hnew => ⟨post, hpost, by
      obtain rfl := some.inj hnew; exact ⟨rfl, rfl, rfl⟩⟩
  | sweep entry post hpost | withdraw entry post hpost => exact h.setPost entry none nofun
  | declare entry post hvacant hserial hholder hid => exact h.declare entry post hserial hid
  | «open» index grant terms row hcaller hfree hserial hid hholder hlistener =>
    refine h.enter index grant hserial hid fun parent hparent => ?_
    rw [hlistener] at hparent
    cases hparent
  | adopt entry index post grant hpost hsocket hholder howner hserial hid hlistener hoptions =>
    have hentered : (t.issue.setGrant index (some grant)).Named := by
      refine h.enter index grant hserial hid fun parent hparent => ?_
      rw [hlistener] at hparent
      exact ⟨entry, post, hpost, some.inj hparent, howner, hoptions⟩
    exact hentered.setPost entry _ fun new hnew => ⟨post, hpost, by
      obtain rfl := some.inj hnew; exact ⟨rfl, rfl, rfl⟩⟩
  | progress index grant phase shutdown hgrant =>
    exact h.setGrant index _ fun new hnew => ⟨grant, hgrant, by
      obtain rfl := some.inj hnew; exact ⟨rfl, rfl, rfl, rfl⟩⟩
  | drop index grant hgrant => exact h.setGrant index none nofun
  | redial pending pending' grant hlookup hgrant =>
    have hmoved : (t.setGrant pending.index (some { grant with phase := .connecting })).Named :=
      h.setGrant pending.index _ fun new hnew => ⟨grant, hgrant, by
        obtain rfl := some.inj hnew; exact ⟨rfl, rfl, rfl, rfl⟩⟩
    exact ⟨hmoved.aligned, hmoved.small, hmoved.grant_bound, hmoved.post_bound,
      hmoved.parent_bound, hmoved.grant_unique, hmoved.post_unique, hmoved.apart, hmoved.parent⟩
  | wipe => exact named_of_empty h.aligned h.small (fun _ => rfl) fun _ => rfl

theorem steps_serial (hsteps : Steps caller t t') :
    t.serial ≤ t'.serial ∧ t'.nameSpace = t.nameSpace := by
  induction hsteps with
  | refl => exact ⟨le_rfl, rfl⟩
  | tail _ hlast ih =>
    obtain ⟨hserial, hspace⟩ := ih
    cases hlast <;> exact ⟨by first | exact hserial | exact le_succ_of_le hserial, hspace⟩

/-- A number is only used up on a caller's behalf. -/
theorem steps_unattended (hsteps : Steps none t t') :
    t'.serial = t.serial ∧ t'.nameSpace = t.nameSpace := by
  induction hsteps with
  | refl => exact ⟨rfl, rfl⟩
  | tail _ hlast ih =>
    cases hlast with
    | declare _ _ _ _ hholder => cases hholder
    | «open» _ _ _ _ hcaller => cases hcaller
    | adopt _ _ _ _ _ _ hholder => cases hholder
    | _ => exact ih

end Table

/-- The id a request of this kind was given: a connection's while it is pending, a listener's or
an accepted connection's when it succeeds. -/
def issuedBy (op : UInt8) : Reply → Option Nat
  | .pending id => if op = opConnect then some id else none
  | .complete completion =>
    if (op = opListen ∨ op = opAccept) ∧ completion.status = .success then
      some completion.capability
    else none

def Op.granted : Op → Outcome Empty Response → Option Nat
  | .handle _ _ _ request _ _, .ok (.reply reply) => issuedBy request.op reply
  | .handleLocal _ _ _ _ request _ _, .ok (.reply reply) => issuedBy request.op reply
  | .listen _ _ _ _ _, .ok (.reply reply) => issuedBy opListen reply
  | .accept _ _ _ _, .ok (.reply reply) => issuedBy opAccept reply
  | _, _ => none

def grantedIds : Engine → List Op → List Nat
  | _, [] => []
  | e, op :: ops => (op.granted (perform op e).1).toList ++ grantedIds (step e op) ops

def Issues (e e' : Engine) (id : Nat) : Prop :=
  id = e.idOf (e.serial + 1) ∧ e'.serial = e.serial + 1 ∧ e.serial + 1 < 2 ^ 32

namespace Engine

variable {e middle : Engine} {stack : Stack} {op : UInt8} {status : Status} {holder : Holder}
  {request : WireNetworkRequest} {now : Instant} {destinations : NetworkDestinations}
  {options : SocketOptions} {payload : List UInt8} {policy : Application} {answer : Reply × Engine}

theorem recordOpen_nameSpace (index : Index) (holder : Holder) :
    (e.recordOpen index holder).nameSpace = e.nameSpace :=
  congrArg Table.nameSpace (table_recordOpen index holder)

theorem issues_of_same {before after : Engine} {id : Nat}
    (hserial : middle.serial = before.serial) (hspace : middle.nameSpace = before.nameSpace)
    (h : Issues middle after id) : Issues before after id := by
  obtain ⟨hid, hafter, hbound⟩ := h
  unfold Issues idOf at *
  rw [hserial, hspace] at hid
  rw [hserial] at hafter hbound
  exact ⟨hid, hafter, hbound⟩

def IssuesNext (op : UInt8) (e : Engine) (answer : Reply × Engine) : Prop :=
  ∀ id, issuedBy op answer.1 = some id → Issues e answer.2 id

theorem issuesNext_fail (hstatus : status ≠ .success)
    (e' : Engine) : IssuesNext op e (fail status, e') := by
  intro id hid
  simp [fail, issuedBy, Completion.ofStatus, hstatus] at hid

theorem issuesNext_of_op (hconnect : op ≠ opConnect) (hlisten : op ≠ opListen)
    (haccept : op ≠ opAccept) (answer : Reply × Engine) : IssuesNext op e answer := by
  intro id hid
  rcases answer with ⟨completion | pending, e'⟩ <;>
    simp [issuedBy, hconnect, hlisten, haccept] at hid

theorem connect_issues :
    IssuesNext opConnect e (e.connect stack destinations holder request now options) := by
  unfold connect
  split
  · exact issuesNext_fail (by decide) e
  dsimp only
  split
  · exact issuesNext_fail (by decide) e
  split
  · exact issuesNext_fail (by decide) e
  split
  · exact issuesNext_fail (by decide) e
  split
  · exact issuesNext_fail (by decide) e
  split
  · exact issuesNext_fail (by decide) e
  rename_i index hindex
  have hshape := steps_unattended (shape_spec (vacant_of_freeSocket hindex) options).1
  split
  · exact issuesNext_fail (by decide) _
  rename_i e' heq
  rw [heq] at hshape
  split
  · exact issuesNext_fail (by decide) _
  rename_i serial hserial
  obtain ⟨rfl, hbound⟩ := nextSerial_eq_some hserial
  split
  · unfold connectNamed startLookup
    split
    · intro id hid
      simp [fail, issuedBy, opConnect, opListen, opAccept] at hid
    · intro id hid
      obtain rfl : _ = id := by simpa [issuedBy] using hid
      exact issues_of_same hshape.1 hshape.2 ⟨rfl, rfl, hbound⟩
  · unfold connectNumeric
    split
    · exact issuesNext_fail (by decide) _
    dsimp only
    split
    · exact issuesNext_fail (by decide) _
    intro id hid
    obtain rfl : _ = id := by simpa [issuedBy] using hid
    refine issues_of_same hshape.1 hshape.2 ⟨?_, rfl, hbound⟩
    unfold idOf
    rw [recordOpen_nameSpace]
    rfl

theorem handleWith_issues :
    IssuesNext request.op e
      (e.handleWith stack destinations holder request payload now options) := by
  unfold handleWith
  split
  · exact issuesNext_fail (by decide) _
  split
  next hop =>
    rw [hop]
    exact connect_issues
  rename_i hconnect
  split
  · exact issuesNext_fail (by decide) _
  rename_i hserved
  refine issuesNext_of_op hconnect ?_ ?_ _
  · intro hop
    simp [hop, opSend, opRecv, opClose, opShutdown, opListen] at hserved
  · intro hop
    simp [hop, opSend, opRecv, opClose, opShutdown, opAccept] at hserved

theorem openListener_issues {peer : Peer} :
    IssuesNext opListen e (e.openListener stack holder policy peer) := by
  unfold openListener
  split
  · exact issuesNext_fail (by decide) e
  rename_i entry hentry
  split
  · exact issuesNext_fail (by decide) e
  rename_i serial hserial
  obtain ⟨rfl, hbound⟩ := nextSerial_eq_some hserial
  dsimp only
  have harm := steps_unattended (armListener_steps
    (e := { e with serial := e.serial + 1 }.setListener entry
      (some (listenerOf holder policy peer (e.idOf (e.serial + 1)))))
    (update_self entry _ _) : Steps none _ (armListener _ stack entry _).2.table)
  split
  · exact issuesNext_fail (by decide) _
  rename_i e' heq
  rw [heq] at harm
  intro id hid
  obtain rfl : e.idOf (e.serial + 1) = id := by
    simpa [issuedBy, Completion.ofStatus, listenerOf] using hid
  exact ⟨rfl, harm.1, hbound⟩

theorem acceptFrom_issues {entry : Index} {listener : Listener} : IssuesNext opAccept e
    (e.acceptFrom stack holder entry listener now) := by
  unfold acceptFrom
  split
  · exact issuesNext_fail (by decide) e
  dsimp only
  split
  · exact issuesNext_fail (by decide) e
  split
  · exact issuesNext_fail (by decide) e
  split
  · exact issuesNext_fail (by decide) e
  rename_i serial hserial
  obtain ⟨rfl, hbound⟩ := nextSerial_eq_some hserial
  intro id hid
  obtain rfl : e.idOf (e.serial + 1) = id := by
    simpa [issuedBy, Completion.ofStatus] using hid
  refine ⟨rfl, ?_, hbound⟩
  refine (Table.steps_unattended (armListener_steps ?_)).1.trans
    (congrArg Table.serial (table_recordOpen _ _))
  unfold recordOpen record
  split <;> exact update_self ..

def CallIssues (op : UInt8) (e : Engine) (answer : Outcome Empty Reply × Engine) : Prop :=
  ∀ reply, answer.1 = .ok reply → IssuesNext op e (reply, answer.2)

theorem callIssues_of_next (h : IssuesNext op e answer) :
    CallIssues op e (.ok answer.1, answer.2) := by
  intro reply hreply
  obtain rfl := ok.inj hreply
  exact h

theorem callIssues_fail (hstatus : status ≠ .success)
    (e' : Engine) : CallIssues op e (.ok (fail status), e') := by
  have hnext : IssuesNext op e (fail status, e') := issuesNext_fail hstatus e'
  exact callIssues_of_next hnext

theorem issuesNext_of_same
    (hserial : middle.serial = e.serial) (hspace : middle.nameSpace = e.nameSpace)
    (h : IssuesNext op middle answer) : IssuesNext op e answer :=
  fun id hid => issues_of_same hserial hspace (h id hid)

theorem listen_issues : CallIssues opListen e
    (listen stack holder policy request now e) := by
  unfold listen
  dsimp only
  split
  · exact callIssues_fail (by decide) _
  split
  · exact callIssues_fail (by decide) _
  split
  · exact callIssues_fail (by decide) _
  split
  · exact callIssues_fail (by decide) _
  · have hsame := steps_unattended (refreshListeners_steps
      : Steps none _ (refreshListeners { e with lastNow := now } stack).table)
    exact callIssues_of_next (issuesNext_of_same hsame.1 hsame.2 openListener_issues)

theorem accept_issues {listenerId : Nat} :
    CallIssues opAccept e (accept stack holder listenerId now e) := by
  unfold accept
  dsimp only
  split
  · exact callIssues_fail (by decide) _
  have hsame := steps_unattended (refreshListeners_steps
    : Steps none _ (refreshListeners { e with lastNow := now } stack).table)
  split
  · intro reply hreply
    cases hreply
  · exact callIssues_of_next (issuesNext_of_same hsame.1 hsame.2 acceptFrom_issues)

theorem handleLocal_issues {applications : NetworkApplications} :
    CallIssues request.op e
      (handleLocal stack destinations applications holder request payload now e) := by
  have hwith (policy : Application) : CallIssues request.op e
      (.ok ({ e with lastNow := now }.handleWith stack destinations holder request payload now
        policy.options).1, ({ e with lastNow := now }.handleWith stack destinations holder request
        payload now policy.options).2) :=
    callIssues_of_next (issuesNext_of_same rfl rfl handleWith_issues)
  unfold handleLocal
  dsimp only
  split
  · exact callIssues_fail (by decide) _
  split
  · exact callIssues_fail (by decide) _
  rename_i policy hpolicy
  split
  next hop =>
    rw [hop]
    exact listen_issues
  rename_i hlisten
  split
  next hop =>
    rw [hop]
    exact accept_issues
  rename_i haccept
  split
  next hconnect =>
    have hsame := steps_unattended (refuseLocal_steps destinations applications
      holder request policy : Steps none _ (refuseLocal { e with lastNow := now } stack
        destinations applications holder request policy).2.table)
    split
    next status e' heq =>
      intro reply hreply id hid
      obtain rfl := ok.inj hreply
      simp [fail, issuedBy, hlisten, haccept] at hid
    next e' heq =>
      rw [heq] at hsame
      exact callIssues_of_next (issuesNext_of_same hsame.1 hsame.2 handleWith_issues)
  · split
    next hop =>
      split
      · intro reply hreply id hid
        obtain rfl := ok.inj hreply
        simp [fail, issuedBy, hlisten, haccept] at hid
      · exact hwith policy
    · exact hwith policy

end Engine

theorem granted_error (op : Op) (fault : Fault Empty) : op.granted (.error fault) = none := by
  cases op <;> rfl

theorem granted_issues {op : Op} {id : Nat}
    (h : op.granted (perform op e).1 = some id) : Issues e (step e op) id := by
  have hcall {code : UInt8} {x : Call Engine Empty Reply} (hx : Engine.CallIssues code e (x e))
      (hperform : perform op = Response.reply <$> x)
      (hgrants : ∀ reply, op.granted (.ok (.reply reply)) = issuedBy code reply) :
      Issues e (step e op) id := by
    unfold step
    rw [hperform, map_answer] at h
    rw [hperform, map_state]
    rcases hanswer : (x e).1 with fault | reply
    · rw [hanswer] at h
      rw [show Except.map Response.reply (Except.error fault) = Except.error fault from rfl,
        granted_error] at h
      cases h
    · rw [hanswer] at h
      exact hx reply hanswer id ((hgrants reply).symm.trans h)
  cases op with
  | handle stack destinations holder request payload now =>
    have hwith : Engine.CallIssues request.op e
        (handle stack destinations holder request payload now e) :=
      callIssues_of_next handleWith_issues
    exact hcall hwith rfl fun _ => rfl
  | handleLocal stack destinations applications holder request payload now =>
    exact hcall handleLocal_issues rfl fun _ => rfl
  | listen stack holder policy request now => exact hcall listen_issues rfl fun _ => rfl
  | accept stack holder listener now => exact hcall accept_issues rfl fun _ => rfl
  | pollPending | advanceDns | tick | releaseHolder | resetAll | permitEgress | enableDns
  | network =>
    simp [Op.granted] at h

theorem named_new {smoltcp : Smoltcp} {rx tx : Nat}
    (h : new smoltcp storage rx tx epoch backend = .ok e) :
    e.table.Named ∧ e.nameSpace = engineSpace epoch backend ∧ e.serial = 0 ∧
      epoch ≤ maxIncarnation ∧ backend ≤ 1 := by
  unfold new at h
  split at h
  · cases h
  rename_i hchecks
  push Not at hchecks
  obtain ⟨-, hepoch, hbackend, -⟩ := hchecks
  obtain rfl := ok.inj h
  have haligned : 2 ^ 32 ∣ engineSpace epoch backend := by
    rw [engineSpace_eq hepoch hbackend]
    exact dvd_mul_right ..
  refine ⟨?_, rfl, rfl, hepoch, hbackend⟩
  exact named_of_empty haligned (Nat.two_pow_pos 32) (fun _ => rfl) fun _ => rfl

theorem named_step (howned : e.table.Owned) (h : e.table.Named) (op : Op) :
    (step e op).table.Named ∧ e.serial ≤ (step e op).serial ∧
      (step e op).nameSpace = e.nameSpace := by
  obtain ⟨caller, hby⟩ := op.exists_by
  have hsteps := step_steps hby howned
  exact ⟨Table.steps_invariant Table.named_step h hsteps, Table.steps_serial hsteps⟩

theorem named_run {smoltcp : Smoltcp} {rx tx : Nat}
    (h : new smoltcp storage rx tx epoch backend = .ok e) (ops : List Op) :
    (run step e ops).table.Owned ∧ (run step e ops).table.Named := by
  refine run_invariant step (fun e => e.table.Owned ∧ e.table.Named) ?_ e ops
    ⟨owned_new h, (named_new h).1⟩
  intro s op hs
  exact ⟨owned_step hs.1 op, (named_step hs.1 hs.2 op).1⟩

theorem grantedIds_spec (howned : e.table.Owned) (h : e.table.Named) (ops : List Op) :
    (grantedIds e ops).Pairwise (· < ·) ∧
      ∀ id ∈ grantedIds e ops, e.nameSpace + e.serial < id ∧ id < e.nameSpace + 2 ^ 32 := by
  induction ops generalizing e with
  | nil => exact ⟨.nil, nofun⟩
  | cons op ops ih =>
    obtain ⟨hnamed, hserial, hspace⟩ := named_step howned h op
    obtain ⟨hascends, hrange⟩ := ih (owned_step howned op) hnamed
    rw [grantedIds]
    rcases hgranted : op.granted (perform op e).1 with _ | id
    · refine ⟨hascends, fun id hid => ?_⟩
      have := hrange id hid
      omega
    obtain ⟨hid, hnext, hbound⟩ := granted_issues hgranted
    have hvalue := hid.trans (or_serial h.aligned hbound)
    simp only [toList_some, List.singleton_append, List.pairwise_cons,
      List.mem_cons, forall_eq_or_imp]
    refine ⟨⟨fun other hother => ?_, hascends⟩, by omega, fun other hother => ?_⟩
    · have := hrange other hother
      omega
    · have := hrange other hother
      omega

end SlimeOs.Tcp
