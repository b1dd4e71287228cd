import Wayfinder.Service.Ledger.Inclusion
import Wayfinder.Service.Credentials.Authenticity
import Wayfinder.Service.Handlers.Alteration
import Wayfinder.Service.Handlers.Portable
import Wayfinder.Service.Handlers.Ownership
import Wayfinder.Service.Handlers.Bookkeeping
import Wayfinder.Service.Handlers.Tracking
import Wayfinder.Service.Handlers.Holdings
import Wayfinder.Service.Statements.Refinement
import Wayfinder.Service.Handlers.Conformance
import Wayfinder.Service.Handlers.Registry
import Wayfinder.App.Transfer
import Wayfinder.Service.Handlers.Heads
import Wayfinder.Service.Handlers.Verdict
import Wayfinder.App.Agreement
import Wayfinder.Service.Handlers.Presented
import Wayfinder.Service.Handlers.Versions
import Wayfinder.Service.Handlers.Amounts
import Wayfinder.Service.Handlers.Covered
import Wayfinder.Service.Handlers.Signing
import Wayfinder.App.Multibase
import Wayfinder.Service.Spec.Closure
import Wayfinder.Service.Handlers.Provenance
import Wayfinder.Service.Handlers.Audit
import Wayfinder.Service.Handlers.FirstCome
import Wayfinder.App.Client
import Wayfinder.App.CredentialsPanel
import Wayfinder.App.Journey
import Wayfinder.App.Undisturbed
