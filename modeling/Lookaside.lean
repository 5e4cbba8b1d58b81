import Lookaside.Entity.AccessToken
import Lookaside.Entity.Language
import Lookaside.Entity.Member
import Lookaside.Main
import Lookaside.Repository.Monitor
import Lookaside.Proofs.Entity
import Lookaside.Proofs.Key
import Lookaside.Proofs.Coherence
import Lookaside.Proofs.Content
import Lookaside.Proofs.CountValidation
import Lookaside.Proofs.Isolation
import Lookaside.Proofs.Retention
import Lookaside.Proofs.Transparency
import Lookaside.Proofs.Deferral
import Lookaside.Proofs.Misses
import Lookaside.Proofs.Emptiness
import Lookaside.Proofs.Confinement
import Lookaside.Proofs.Inclusion
import Lookaside.Proofs.Steadiness
import Lookaside.Proofs.Growth
import Lookaside.Proofs.Packing
import Lookaside.Proofs.Walk
import Lookaside.Proofs.Numbering
import Lookaside.Proofs.Aftermath
import Lookaside.Proofs.AllOrNothing
import Lookaside.Proofs.Refusals
import Lookaside.Proofs.Warmth
import Lookaside.Proofs.Healing
import Lookaside.Proofs.Arrangement
import Lookaside.Proofs.Eviction
import Lookaside.Proofs.Listing
import Lookaside.Proofs.Rejections
import Lookaside.Proofs.Endings
import Lookaside.Proofs.Scanning
import Lookaside.Proofs.Marker
import Lookaside.Proofs.LatestBatch
import Lookaside.Proofs.Warnings
