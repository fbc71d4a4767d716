import BrightCli.Lib.JsNumber
import BrightCli.Lib.Trace
import BrightCli.Lib.Utf8

/-!
# Traceroute

Source: `src/Utils/Traceroute.ts`.

A step is one callback of the event loop: the `setImmediate` that sends a probe,
the completion of a send, an ICMP message, the completion of a reverse lookup, a
timer. The lookup of a message that was accepted is pending until its step comes,
which is so without `reverseLookup` too: there is nothing to look up then, but the
handler awaits all the same. `sent` and `concluded` are the history: a probe enters the first when it
is handed to the socket, and a call of `handleReply` enters the identifier of its
probe into the second, which is the identifier carried by the reply, or that of
the probe whose send completion armed the timer.

What is printed is left out, and with it the host names, the previous address and
the round-trip times. The counts in the options are numbers of the language, which
nothing rounds or restricts on the way from the command line; the counters start
from whole numbers and stay far below the first one that has no successor.
-/
namespace BrightCli.Source.Traceroute
open BrightCli.Lib BrightCli.Lib.Js

/-- Everything but UDP goes through the ICMP socket. -/
inductive Protocol where
  | icmp
  | udp
  deriving DecidableEq, Repr

structure UserOptions where
  amountProbes : Option Number := none
  maximumHops : Option Number := none
  protocol : Option Protocol := none
  deriving DecidableEq, Repr

structure Options where
  amountProbes : Number
  maximumHops : Number
  protocol : Protocol
  some_hop : ((1 : Nat) : Number) ≤ maximumHops
  few_hops : maximumHops ≤ ((255 : Nat) : Number)
  deriving DecidableEq, Repr

def defaultMaximumHops : Number := (64 : Nat)

/-- `userOptions.maximumHops || defaultOptions.maximumHops`. -/
def givenHops (user : UserOptions) : Number :=
  (user.maximumHops.filter Number.truthy).getD defaultMaximumHops

theorem givenHops_ne_nan (user : UserOptions) : givenHops user ≠ .nan := by
  unfold givenHops
  cases given : user.maximumHops.filter Number.truthy with
  | none => exact Number.noConfusion
  | some hops =>
    intro missing
    have kept := (Option.filter_eq_some_iff.mp given).2
    rw [show hops = .nan from missing] at kept
    cases kept

/-- The constructor: a maximum out of range is the default one. -/
def Options.of (user : UserOptions) : Options :=
  let hops :=
    if ((255 : Nat) : Number) < givenHops user ∨ givenHops user < ((1 : Nat) : Number) then
      defaultMaximumHops
    else givenHops user
  { amountProbes := user.amountProbes.getD (3 : Nat)
    maximumHops := hops
    protocol := user.protocol.getD .icmp
    some_hop := by
      dsimp only [hops]
      split
      · decide
      · rename_i inside
        exact Number.le_of_not_lt (givenHops_ne_nan user) Number.noConfusion (not_or.mp inside).2
    few_hops := by
      dsimp only [hops]
      split
      · decide
      · rename_i inside
        exact Number.le_of_not_lt Number.noConfusion (givenHops_ne_nan user) (not_or.mp inside).1 }

/-- What the code uses of the package `raw-socket`. Writing a checksum changes the
two bytes at its offset and nothing else. -/
structure RawSocket where
  createChecksum : Utf8.Bytes → Nat
  writeChecksum : Utf8.Bytes → Nat → Nat → Utf8.Bytes
  length_writeChecksum : ∀ buffer offset checksum,
    (writeChecksum buffer offset checksum).length = buffer.length
  getElem?_writeChecksum : ∀ buffer offset checksum i, i ≠ offset → i ≠ offset + 1 →
    (writeChecksum buffer offset checksum)[i]? = buffer[i]?

def firstByte (value : Nat) : Nat := value &&& 0xff

def secondByte (value : Nat) : Nat := (value &&& 0xff00) >>> 8

theorem firstByte_eq (value : Nat) : firstByte value = value % 256 :=
  Nat.and_two_pow_sub_one_eq_mod value 8

theorem secondByte_eq (value : Nat) : secondByte value = value / 256 % 256 := by
  unfold secondByte
  rw [Nat.shiftRight_and_distrib, Nat.shiftRight_eq_div_pow]
  exact Nat.and_two_pow_sub_one_eq_mod (value / 256) 8

/-- The type zero stands for an echo request. -/
def createPingRequest (raw : RawSocket) (type identifier sequence packetSize : Nat) :
    Utf8.Bytes :=
  let header :=
    [if type = 0 then 0x08 else type, 0x00, 0x00, 0x00, secondByte identifier,
      firstByte identifier, secondByte sequence, firstByte sequence]
  let buffer := (header ++ List.replicate packetSize 0xff).map UInt8.ofNat
  raw.writeChecksum buffer 2 (raw.createChecksum buffer)

/-- `ERR_OUT_OF_RANGE` or `ERR_BUFFER_OUT_OF_BOUNDS`. -/
inductive RangeError where
  | outOfRange
  deriving DecidableEq, Repr

def readUInt8 (msg : Utf8.Bytes) (offset : Nat) : Except RangeError Nat :=
  match msg[offset]? with
  | some byte => .ok byte.toNat
  | none => .error .outOfRange

def readUInt16BE (msg : Utf8.Bytes) (offset : Nat) : Except RangeError Nat := do
  let high ← readUInt8 msg offset
  let low ← readUInt8 msg (offset + 1)
  .ok (high * 256 + low)

/-- Where the echo header of a message starts: after its own headers or, in an
error message, after those of the request it quotes. -/
def echoOffset (msg : Utf8.Bytes) : Except RangeError (Option Nat) := do
  let type ← readUInt8 msg 20
  if type = 3 ∨ type = 4 ∨ type = 5 ∨ type = 11 then
    if msg.length < 28 + 20 then .ok none
    else
      let first ← readUInt8 msg 28
      if first / 16 ≠ 4 then .ok none
      else
        let icmpIPLength := first % 16 * 4
        if msg.length < 28 + icmpIPLength + 8 then .ok none else .ok (some (28 + icmpIPLength))
  else .ok (some 20)

def parseIdFromIcmpMessage (msg : Utf8.Bytes) : Except RangeError (Option Nat) := do
  match ← echoOffset msg with
  | none => .ok none
  | some offset => return some (← readUInt16BE msg (offset + 6))

/-- The sequence number in the packet: two bytes of the counter. -/
def packetId (port : Nat) : Nat := secondByte port * 256 + firstByte port

theorem packetId_eq (port : Nat) : packetId port = port % 65536 := by
  rw [packetId, firstByte_eq, secondByte_eq]
  omega

structure Probe where
  port : Nat
  ttl : Nat
  deriving DecidableEq, Repr

/-- The identifier that a reply to the probe carries. -/
def Probe.id (probe : Probe) : Nat := packetId probe.port

/-- What the promise of `execute` settled with, if the process did not end before
with an exception that nobody catches. -/
inductive Outcome where
  | stopped (reached : Bool)
  | failed
  | crashed
  deriving DecidableEq, Repr

structure State where
  port : Nat
  ttl : Nat
  probes : Nat
  /-- The field `timeout`, which is overwritten and never reset. -/
  timeout : Option Nat
  /-- Timers that are armed, with the probe whose send armed them. -/
  timers : List (Nat × Nat)
  nextTimer : Nat
  /-- Probes whose send has not completed. -/
  sending : List Nat
  /-- Replies whose lookup has not completed: identifier and sender. -/
  lookups : List (Nat × String)
  /-- Calls of `sendPacket` that are scheduled. -/
  scheduled : Nat
  closed : Bool
  outcome : Option Outcome
  sent : List Probe
  concluded : List Nat
  deriving DecidableEq, Repr

namespace State

/-- After `execute` has scheduled the first probe. -/
def init : State :=
  { port := 33433, ttl := 1, probes := 0, timeout := none, timers := [], nextTimer := 0
    sending := [], lookups := [], scheduled := 1, closed := false, outcome := none
    sent := [], concluded := [] }

/-- The first error rejects the promise of `execute`; nothing is closed. -/
def emitError (s : State) : State := { s with outcome := s.outcome.or (some .failed) }

def clearTimeout (s : State) : State :=
  { s with timers := s.timers.filter fun timer => some timer.1 ≠ s.timeout }

/-- An exception in a callback ends the process, and with it all that is pending. -/
def crash (s : State) : State :=
  { s with
    timers := [], sending := [], lookups := [], scheduled := 0, closed := true
    outcome := some .crashed }

/-- The counters after the next probe was prepared. -/
def prepare (options : Options) (s : State) : State :=
  let s := if (s.probes : Number) ≥ options.amountProbes then { s with probes := 0, ttl := s.ttl + 1 } else s
  { s with probes := s.probes + 1, port := s.port + 1 }

/-- `send` of the UDP socket throws for a port out of range. -/
def badPort (options : Options) (port : Nat) : Bool := options.protocol = .udp && port ≥ 65536

/-- `sendPacket`. A socket that refuses the packet, as a closed one does, leaves
the counters advanced and sends nothing. -/
def sendPacket (options : Options) (s : State) (accepted : Bool) : State :=
  let s := prepare options s
  if accepted && !s.closed then
    if badPort options s.port then s.crash
    else
      { s with
        sending := s.sending ++ [s.port]
        sent := s.sent ++ [{ port := s.port, ttl := s.ttl }] }
  else s.emitError

def afterSend (s : State) (probe : Nat) (error : Bool) : State :=
  if error then s.emitError
  else
    { s with
      timeout := some s.nextTimer
      timers := s.timers ++ [(s.nextTimer, probe)]
      nextTimer := s.nextTimer + 1 }

/-- `Stop` resumes `execute`, which closes the sockets, unless an error was first. -/
def emitStop (s : State) (reached : Bool) : State :=
  match s.outcome with
  | none => { s with closed := true, outcome := some (.stopped reached) }
  | some _ => s

/-- `handleReply`, for the given probe. -/
def handleReply (options : Options) (destinationIp : String) (s : State) (probe : Nat)
    (ip : Option String) : State :=
  let s := { s.clearTimeout with concluded := s.concluded ++ [probe] }
  if (s.probes : Number) = options.amountProbes ∧
      (ip = some destinationIp ∨ (s.ttl : Number) ≥ options.maximumHops) then
    s.emitStop (ip = some destinationIp)
  else { s with scheduled := s.scheduled + 1 }

inductive Event where
  | immediate (accepted : Bool)
  | sendCompleted (probe : Nat) (error : Bool)
  | message (buffer : Utf8.Bytes) (ip : String)
  | lookupCompleted (k : Nat)
  | timerFires (timer : Nat)
  | socketError
  deriving DecidableEq, Repr

/-- The handler of messages drops those of other probes; reading past the end of
the buffer rejects its promise. -/
def receive (s : State) (buffer : Utf8.Bytes) (ip : String) : State :=
  match parseIdFromIcmpMessage buffer with
  | .ok (some id) => if id = s.port then { s with lookups := s.lookups ++ [(id, ip)] } else s
  | _ => s

def step (options : Options) (destinationIp : String) (s : State) : Event → Option State
  | .immediate accepted =>
    if 0 < s.scheduled then
      some (sendPacket options { s with scheduled := s.scheduled - 1 } accepted)
    else none
  | .sendCompleted probe error =>
    if probe ∈ s.sending then
      some (afterSend { s with sending := s.sending.erase probe } probe error)
    else none
  | .message buffer ip => if s.closed then none else some (s.receive buffer ip)
  | .lookupCompleted k =>
    match s.lookups[k]? with
    | some (probe, ip) =>
      some (handleReply options destinationIp { s with lookups := s.lookups.eraseIdx k } probe
        (some ip))
    | none => none
  | .timerFires timer =>
    match s.timers.find? fun pending => pending.1 = timer with
    | some (_, probe) =>
      some (handleReply options destinationIp
        { s with timers := s.timers.filter fun pending => pending.1 ≠ timer } probe none)
    | none => none
  | .socketError => some s.emitError

end State

end BrightCli.Source.Traceroute
