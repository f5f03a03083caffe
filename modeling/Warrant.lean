import Warrant.Graph.Lemmas
import Warrant.Plan.Document
import Warrant.Proofs.Authority.Containment
import Warrant.Proofs.Authority.Grants
import Warrant.Proofs.Effect.Polling
import Warrant.Proofs.Filter.Conjunction
import Warrant.Proofs.Plan.Exactness
import Warrant.Proofs.Resolution.Substitution
import Warrant.Proofs.Schema.Names
import Warrant.Proofs.Schema.RoundTrip
import Warrant.Proofs.Service.Carried
import Warrant.Proofs.Service.Reading
import Warrant.Proofs.Statement.Canonical
import Warrant.Proofs.Statement.Layout
import Warrant.Proofs.Store.Filing
import Warrant.Proofs.Store.Identities
import Warrant.Proofs.Store.Nulls
import Warrant.Proofs.Store.Pinning
import Warrant.Proofs.Store.Repetition
import Warrant.Service.Reply
import Warrant.Service.Session
import Warrant.Service.Summary
