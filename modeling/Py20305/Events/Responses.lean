import Py20305.Lib.Dict
import Py20305.Sep.Resources

/-!
Response codes and the response tracker (`events/response.py`).

The body of a response is built from data that is passed through unread and is
left out; what is kept is which code goes to the wire and which responses the
tracker holds to have been sent.
-/

namespace Py20305

/-- `ResponseCode`. -/
inductive ResponseCode where
  | acknowledged | active | completed | optOut | optIn | cancelled | superseded
  | partialOptOut | partialOptIn | completeNoParticipation
  | supersededAlternateServer | supersededAlternateProgram | resumed
  | notSupported | notApplicable | invalid | expired
  deriving DecidableEq, Repr

namespace ResponseCode

/-- `_required_bit_for`: the responseRequired bit that governs a code. -/
def requiredBit : ResponseCode → Nat
  | acknowledged => 0
  | optOut | optIn | partialOptOut | partialOptIn => 2
  | _ => 1

end ResponseCode

/-- `response_required_allows`. -/
def responseRequiredAllows (required : Option Nat) (code : ResponseCode) : Bool :=
  (required.getD 0).testBit code.requiredBit

/-- How the dispatch of a control to a device can fail. -/
inductive DispatchFailure where
  | optOut | commandNotPermitted | deviceNotConfigured | connectorValue | invalidControlValue
  | modeNotSupported | offlinePermanent | offlineTransient | timeout | other
  deriving DecidableEq, Repr

/-- `response_code_for_dispatch_error`. -/
def responseCodeForDispatchError : DispatchFailure → ResponseCode
  | .optOut => .optOut
  | .commandNotPermitted | .deviceNotConfigured => .notApplicable
  | .connectorValue | .invalidControlValue => .invalid
  | .modeNotSupported | .offlinePermanent | .offlineTransient | .timeout | .other => .notSupported

/-- The edition of the server's profile: its response status table. -/
inductive Edition where
  | ed2018 | ed2023
  deriving DecidableEq, Repr

/-- `ServerProfile.wire_response_code`. -/
def Edition.wireResponseCode : Edition → ResponseCode → ResponseCode
  | ed2018, .notSupported => .notApplicable
  | _, code => code

/-- `_resolve_wire_code`: an opt-out that is not asked for goes out as a
capability limit. -/
def resolveWireCode (edition : Edition) (derc : Dercontrol) (code : ResponseCode) : ResponseCode :=
  edition.wireResponseCode
    (if code = .optOut ∧ responseRequiredAllows derc.responseRequired .optOut = false
      then .notSupported else code)

/-- What goes to the wire is the code itself, or says that a device cannot take
the event. -/
theorem resolveWireCode_cases (edition : Edition) (derc : Dercontrol) (code : ResponseCode) :
    resolveWireCode edition derc code = code ∨
      resolveWireCode edition derc code = .notSupported ∨
      resolveWireCode edition derc code = .notApplicable := by
  unfold resolveWireCode
  split
  · right
    cases edition <;> decide
  · cases edition <;> cases code <;> decide

/-- The key of one response. -/
structure ResponseKey where
  mrid : Mrid
  code : ResponseCode
  lfdi : Lfdi
  deriving DecidableEq, Repr

/-- `ResponseTracker`: the responses sent, with the time each was stamped with,
and those being posted, each with the task that posts it. -/
structure ResponseTracker where
  sent : Dict ResponseKey Int := Dict.empty
  inFlight : Dict ResponseKey Nat := Dict.empty

namespace ResponseTracker

/-- `ResponseTracker.has_responded`. -/
def hasResponded (t : ResponseTracker) (mrid : Mrid) : Bool := t.sent.keys.any (·.mrid = mrid)

/-- Claim a key for the posting task. -/
def claim (t : ResponseTracker) (key : ResponseKey) (owner : Nat) : ResponseTracker :=
  { t with inFlight := t.inFlight.set key owner }

/-- `ResponseTracker.release`. -/
def release (t : ResponseTracker) (key : ResponseKey) : ResponseTracker :=
  { t with inFlight := t.inFlight.erase key }

/-- `ResponseTracker.mark_sent`. -/
def markSent (t : ResponseTracker) (key : ResponseKey) (now : Int) : ResponseTracker where
  sent := t.sent.set key now
  inFlight := t.inFlight.erase key

/-- `ResponseTracker.prune`, with its age of 7200 s. -/
def prune (t : ResponseTracker) (now : Int) : ResponseTracker :=
  { t with sent := t.sent.filter fun _ at_ => !(7200 < now - at_) }

/-- Give back the claims of tasks that were cancelled. -/
def releaseOf (t : ResponseTracker) (owners : List Nat) : ResponseTracker :=
  { t with inFlight := t.inFlight.filter fun _ owner => owner ∉ owners }

end ResponseTracker

end Py20305
