import PluginBridge.Browser.Simulated
import PluginBridge.Page.Basic
import PluginBridge.Storage.Operation
import PluginBridge.Proofs.Storage.Reachable
import PluginBridge.Proofs.Storage.Listing
import PluginBridge.Proofs.Session.Ledger
import PluginBridge.Proofs.Session.MemoryReplies
import PluginBridge.Proofs.Storage.Bytes
import PluginBridge.Proofs.Storage.Quota
import PluginBridge.Proofs.Storage.Walk
import PluginBridge.Proofs.Storage.Visits
import PluginBridge.Proofs.Wire.Grammar
import PluginBridge.Proofs.Wire.Receiver
import PluginBridge.Proofs.Session.Console
import PluginBridge.Proofs.Session.Keys
import PluginBridge.Proofs.Browser.Mirror
import PluginBridge.Proofs.Number.Whole
import PluginBridge.Proofs.Session.Tracing
import PluginBridge.Proofs.Browser.Agreement
import PluginBridge.Proofs.Text.ByteOrder
import PluginBridge.Proofs.Storage.Scan
import PluginBridge.Proofs.Storage.Removal
import PluginBridge.Proofs.Browser.Acquisition
import PluginBridge.Proofs.Page.Hearing
import PluginBridge.Proofs.Page.Creation
import PluginBridge.Proofs.Storage.Placement
import PluginBridge.Proofs.Storage.Writing
import PluginBridge.Proofs.Storage.Chain
import PluginBridge.Proofs.Storage.Ascent
import PluginBridge.Proofs.Storage.Allowance
import PluginBridge.Proofs.Storage.Commutation
import PluginBridge.Proofs.Storage.Contents
import PluginBridge.Proofs.Session.Rejection
import PluginBridge.Proofs.Page.Throwing
import PluginBridge.Proofs.Page.Listening
import PluginBridge.Proofs.Browser.Exchange
import PluginBridge.Proofs.Browser.Resolution
import PluginBridge.Proofs.Settings.Forms
