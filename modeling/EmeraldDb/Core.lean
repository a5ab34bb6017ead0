import Mathlib.Tactic.Common

/-
  Result codes of the server and the ways a call can end
  without a result code.

  Key definitions include:
    * `edbOk` and the other result codes
    * `Fault`
-/

namespace EmeraldDb

------------------------------------------------------------
-- Result Codes
------------------------------------------------------------

abbrev edbOk : Int := 0
abbrev edbIo : Int := -1
abbrev edbInvalidArg : Int := -2
abbrev edbPerm : Int := -3
abbrev edbOom : Int := -4
abbrev edbSys : Int := -5
abbrev edbTimeout : Int := -8
abbrev edbQuiesced : Int := -9
abbrev edbEduInvalStatus : Int := -10
abbrev edbNetwork : Int := -11
abbrev edbNetworkClose : Int := -12
abbrev edbAppForced : Int := -13
abbrev edbIxmIdExist : Int := -14
abbrev edbNoId : Int := -17

/-
  A call that does not return a code: the BSON library threw
  an assertion, the process was ended by a failed assertion
  of the C library or by its allocator, a read ran off its
  object or its buffer, a null object was dereferenced, or
  the caller's list of kernel outcomes ended while the call
  still waited for the next one.
-/
inductive Fault
| assertion
| aborted
| stray
| nullObject
| starved
deriving DecidableEq, Repr

end EmeraldDb
