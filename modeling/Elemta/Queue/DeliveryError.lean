import Elemta.Queue.Message

/-!
# Delivery errors and their classification

The error values that delivery handlers return, as the trees that `errors.As`
walks, and `isTemporaryFailure` (`processor.go`), which decides from such a tree
whether the queue retries or bounces.
-/

namespace Elemta.Queue

open Bytes

inductive GoError where
  /-- `errors.New`, or `fmt.Errorf` without `%w`. -/
  | plain (text : Bytes)
  /-- `fmt.Errorf` with `%w`: its own text over the wrapped error. -/
  | wrapped (text : Bytes) (inner : GoError)
  /-- `errors.Join` of two errors. -/
  | joined (first second : GoError)
  /-- `PermanentError` with nothing under it. -/
  | permanent (text : Bytes)
  /-- `PermanentError` over the error it marks. -/
  | permanentOf (text : Bytes) (inner : GoError)
  /-- `TemporaryError`. -/
  | temporary (text : Bytes)
  /-- `domainFailuresError`, the aggregate of an SMTP delivery. -/
  | domainFailures (text : Bytes) (isPermanent : Bool)
  /-- A `net.Error`: dial, timeout and DNS failures. -/
  | network (text : Bytes) (isTemporary : Bool)
  /-- `textproto.Error`, a server's reply. -/
  | reply (code : Nat) (text : Bytes)
  deriving DecidableEq

namespace GoError

/-- `%03d`. -/
def replyCodeText (code : Nat) : Bytes :=
  List.replicate (3 - (itoa code).length) 48 ++ itoa code

/-- `Error()`. -/
def text : GoError → Bytes
  | plain t => t
  | wrapped t _ => t
  | joined a b => a.text ++ [10] ++ b.text
  | permanent t => t
  | permanentOf t _ => t
  | temporary t => t
  | domainFailures t _ => t
  | network t _ => t
  | reply code t => replyCodeText code ++ [32] ++ t

/-- What the first error of the tree with a `Permanent()` method answers. -/
def permanentMark : GoError → Option Bool
  | wrapped _ e => e.permanentMark
  | joined a b => a.permanentMark.or b.permanentMark
  | permanent _ => some true
  | permanentOf _ _ => some true
  | domainFailures _ p => some p
  | _ => none

def temporaryMark : GoError → Option Bool
  | wrapped _ e => e.temporaryMark
  | joined a b => a.temporaryMark.or b.temporaryMark
  | permanentOf _ e => e.temporaryMark
  | temporary _ => some true
  | domainFailures _ p => some !p
  | network _ t => some t
  | _ => none

def hasNetwork : GoError → Bool
  | wrapped _ e => e.hasNetwork
  | joined a b => a.hasNetwork || b.hasNetwork
  | permanentOf _ e => e.hasNetwork
  | network _ _ => true
  | _ => false

def replyCode : GoError → Option Nat
  | wrapped _ e => e.replyCode
  | joined a b => a.replyCode.or b.replyCode
  | permanentOf _ e => e.replyCode
  | reply code _ => some code
  | _ => none

end GoError

/-- The codes that mark an untyped error as permanent. -/
def permanentCodes : List Bytes :=
  [lit "550", lit "551", lit "552", lit "553", lit "554"]

def readsPermanent (text : Bytes) : Bool :=
  permanentCodes.any fun code => contains text (code ++ lit " ") || hasPrefix text code

def isTemporaryFailure : Option GoError → Bool
  | none => false
  | some e =>
    if e.permanentMark = some true then false
    else if e.temporaryMark = some true then true
    else if e.hasNetwork then true
    else
      match e.replyCode with
      | some code => 400 ≤ code && code < 500
      -- the transient patterns and the default both retry
      | none => !readsPermanent e.text

example : isTemporaryFailure (some (.plain (lit "554 5.6.0 refused"))) = false := by decide

end Elemta.Queue
