import EmeraldDb.Msg.Msg
import EmeraldDb.Oss.Socket

/-
  The commands of the client.

  A command sends one message and waits for the reply.  The
  reply is received into a buffer that was filled with zeros;
  addresses count from the start of the buffer, and what lies
  behind the buffer is whatever the process has there.

  An argument of a command stands for what the parser makes
  of its text: an object, or nothing.  Printing an object may
  fail; `toString` says when.

  Key definitions include:
    * `recvReply`
    * `sendMsg`
    * `Command.execute`
    * `insertCommand`, `deleteCommand`, `queryCommand`
-/

namespace EmeraldDb

abbrev recvBufSize : Nat := 4096
abbrev sendBufSize : Nat := 4096

abbrev edbInsertInvalidArgument : Int := -105
abbrev edbDeleteInvalidArgument : Int := -106
abbrev edbInvalidRecord : Int := -201
abbrev edbRecvDataLengthError : Int := -202
abbrev edbMsgBuildFailed : Int := -203
abbrev edbSocketNotConnect : Int := -301
abbrev edbSocketRemoteClosed : Int := -304
abbrev edbSocketSendFailed : Int := -305
abbrev edbInternalError : Int := -401

/- A call that ends with a code, or still waits. -/
abbrev Transferred :=
  Option Int × Memory × OssSocket

------------------------------------------------------------
-- Receiving
------------------------------------------------------------

/-
  Receive until there is no timeout.  A timeout uses up an
  answer of `select`, so one try more than there are answers
  is never made.
-/
def recvRetry
    (a : Nat)
    (len : Int) :
    Nat → Memory → OssSocket → Transferred
| 0, m, socket => (none, m, socket)
| tries + 1, m, socket =>
    match socket.recv m a len with
    | (none, m, socket) => (none, m, socket)
    | (some rc, m, socket) =>
        if rc = edbOk then (some edbOk, m, socket)
        else if rc = edbTimeout then
          recvRetry a len tries m socket
        else if rc = edbNetworkClose then
          (some edbSocketRemoteClosed, m, socket)
        else (some edbInternalError, m, socket)

def recvAll
    (a : Nat)
    (len : Int)
    (m : Memory)
    (socket : OssSocket) : Transferred :=
  recvRetry a len (socket.selects.length + 1) m socket

/- Receive a reply: its length, then the rest of it. -/
def recvReply
    (m : Memory)
    (socket : OssSocket) : Transferred :=
  let m := m.fill 0 recvBufSize 0
  match socket.isConnected with
  | (none, socket) => (none, m, socket)
  | (some false, socket) =>
      (some edbSocketNotConnect, m, socket)
  | (some true, socket) =>
      match recvAll 0 4 m socket with
      | (none, m, socket) => (none, m, socket)
      | (some rc, m, socket) =>
          if rc ≠ edbOk then (some rc, m, socket)
          else
            let length := m.int 0
            if (recvBufSize : Int) < length then
              (some edbRecvDataLengthError, m, socket)
            else recvAll 4 (wrapInt (length - 4)) m socket

------------------------------------------------------------
-- Sending
------------------------------------------------------------

/- A builder of messages with one object. -/
abbrev OnMsgBuild :=
  Option Memory → MsgBuffer → BSONObj → Int × MsgBuffer

/-
  Build a message in the zero-filled buffer and send it.  The
  buffer is a member of the command and nothing that `realloc`
  can enlarge: a message that does not fit ends the process.
-/
def sendMsg
    (onMsgBuild : OnMsgBuild)
    (bsonData : Option BSONObj)
    (socket : OssSocket) :
    Except Fault (Option Int × OssSocket) :=
  match bsonData with
  | none => .ok (some edbInvalidRecord, socket)
  | some obj =>
      -- without memory the builder stops where it would grow
      let (rc, b) :=
        onMsgBuild none ⟨fun _ => 0, sendBufSize⟩ obj
      if rc = edbOom then .error .aborted
      else if rc ≠ edbOk then
        .ok (some edbMsgBuildFailed, socket)
      else
        match socket.send b.mem 0 (msgLen b.mem) with
        | (none, socket) => .ok (none, socket)
        | (some rc, socket) =>
            if rc ≠ edbOk then
              .ok (some edbSocketSendFailed, socket)
            else .ok (some edbOk, socket)

------------------------------------------------------------
-- Commands
------------------------------------------------------------

/- What the three commands do differently. -/
structure Command where
  invalidArgument : Int
  onMsgBuild : OnMsgBuild
  handleReply : Memory → Except Fault Int

/- The return code of the reply in the buffer. -/
def returnCode (m : Memory) : Int :=
  m.int 8

def insertCommand : Command where
  invalidArgument := edbInsertInvalidArgument
  onMsgBuild := msgBuildInsert
  handleReply := fun m => .ok (returnCode m)

def deleteCommand : Command where
  invalidArgument := edbDeleteInvalidArgument
  onMsgBuild := msgBuildDelete
  handleReply := fun m => .ok (returnCode m)

/- A query prints the object of a successful reply. -/
def queryCommand
    (toString : BSONObj → Except Fault Unit) : Command where
  invalidArgument := edbDeleteInvalidArgument
  onMsgBuild := msgBuildQuery
  handleReply := fun m =>
    if returnCode m = edbOk then do
      let bsonData ← BSONObj.ofData m sizeofMsgReply
      toString bsonData
      return returnCode m
    else .ok (returnCode m)

namespace Command

def execute
    (c : Command)
    (argVec : List (Option BSONObj))
    (m : Memory)
    (socket : OssSocket) : Except Fault Transferred :=
  match argVec with
  | [bsonData] =>
      match socket.isConnected with
      | (none, socket) => .ok (none, m, socket)
      | (some false, socket) =>
          .ok (some edbSocketNotConnect, m, socket)
      | (some true, socket) =>
          match sendMsg c.onMsgBuild bsonData socket with
          | .error fault => .error fault
          | .ok (none, socket) => .ok (none, m, socket)
          | .ok (some rc, socket) =>
              if rc < 0 then .ok (some rc, m, socket)
              else
                match recvReply m socket with
                | (none, m, socket) => .ok (none, m, socket)
                | (some rc, m, socket) =>
                    if rc < 0 then .ok (some rc, m, socket)
                    else do
                      let rc ← c.handleReply m
                      return (some rc, m, socket)
  | _ => .ok (some c.invalidArgument, m, socket)

end Command

end EmeraldDb
