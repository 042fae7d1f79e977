import KeyCustody.Main
import KeyCustody.Script.Play
import KeyCustody.Settings.Document
import KeyCustody.Proofs.KeyRing.Issuing
import KeyCustody.Proofs.Session.Release
import KeyCustody.Proofs.Session.Reversal
import KeyCustody.Proofs.Session.Career
import KeyCustody.Proofs.Session.Compensation
import KeyCustody.Proofs.Session.Fulfilment
import KeyCustody.Proofs.Session.Isolation
import KeyCustody.Proofs.Session.Concurrency
import KeyCustody.Proofs.Http.Mounting
import KeyCustody.Proofs.Session.Resumption
import KeyCustody.Proofs.Secrecy.Script
import KeyCustody.Proofs.Store.Reference
import KeyCustody.Proofs.Http.Closing
import KeyCustody.Proofs.Session.Engines
import KeyCustody.Proofs.Http.Dropping
import KeyCustody.Proofs.Http.Message
import KeyCustody.Proofs.CommandLine.Issuing
import KeyCustody.Proofs.Session.Rollback
import KeyCustody.Proofs.Net.IpAddress
import KeyCustody.Proofs.Settings.Exposure
import KeyCustody.Proofs.KeyRing.Resolving
import KeyCustody.Proofs.Settings.Loading
import KeyCustody.Proofs.Text.Encoding
import KeyCustody.Proofs.Json.Literal
import KeyCustody.Proofs.Json.Numeral
import KeyCustody.Proofs.Json.Skipping
import KeyCustody.Proofs.Settings.Agreement
