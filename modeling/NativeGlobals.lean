import NativeGlobals.Content
import NativeGlobals.Schema
import NativeGlobals.Global
import NativeGlobals.Value
import NativeGlobals.Failure
import NativeGlobals.Log
import NativeGlobals.Registry
import NativeGlobals.Registry.Lemmas
import NativeGlobals.Registry.WellFormed
import NativeGlobals.Step
import NativeGlobals.Process
import NativeGlobals.Session
import NativeGlobals.History
import NativeGlobals.History.Lemmas
import NativeGlobals.Tracking
import NativeGlobals.Proofs.Run
import NativeGlobals.Proofs.ReadBack
import NativeGlobals.Proofs.Exchange
import NativeGlobals.Proofs.LastWrite
import NativeGlobals.Proofs.Completeness
import NativeGlobals.Proofs.Freezing
import NativeGlobals.Proofs.Invariant
import NativeGlobals.Proofs.Reachable
import NativeGlobals.Proofs.Place
import NativeGlobals.Proofs.FatalExit
import NativeGlobals.Proofs.Reordering
import NativeGlobals.Proofs.Refusal
import NativeGlobals.Proofs.Exported
import NativeGlobals.Proofs.Observer
import NativeGlobals.Proofs.Noninterference
import NativeGlobals.Proofs.Logging
import NativeGlobals.Proofs.LogShape
import NativeGlobals.Proofs.Message
import NativeGlobals.Proofs.Views
import NativeGlobals.Proofs.Tracking
import NativeGlobals.Proofs.WriteRecords
