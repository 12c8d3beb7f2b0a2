import DoubleRatchet.Group.Cipher
import DoubleRatchet.Identity
import DoubleRatchet.Proofs.AcceptedBundles
import DoubleRatchet.Proofs.Announcement
import DoubleRatchet.Proofs.Atomicity
import DoubleRatchet.Proofs.Authentication
import DoubleRatchet.Proofs.Delivery
import DoubleRatchet.Proofs.FirstReader
import DoubleRatchet.Proofs.Group.Broadcast
import DoubleRatchet.Proofs.Group.Chain
import DoubleRatchet.Proofs.Group.Member
import DoubleRatchet.Proofs.Group.Operations
import DoubleRatchet.Proofs.Group.Record
import DoubleRatchet.Proofs.GroupAuthentication
import DoubleRatchet.Proofs.GroupDelivery
import DoubleRatchet.Proofs.GroupSkippedKeys
import DoubleRatchet.Proofs.Handshakes
import DoubleRatchet.Proofs.Independence
import DoubleRatchet.Proofs.Integrity
import DoubleRatchet.Proofs.MacInput
import DoubleRatchet.Proofs.OneTimeKeys
import DoubleRatchet.Proofs.Ownership
import DoubleRatchet.Proofs.PinnedIdentities
import DoubleRatchet.Proofs.Pinning
import DoubleRatchet.Proofs.PreKeyWrapping
import DoubleRatchet.Proofs.Randomness
import DoubleRatchet.Proofs.RatchetAgreement
import DoubleRatchet.Proofs.Redistribution
import DoubleRatchet.Proofs.Reloading
import DoubleRatchet.Proofs.Repetition
import DoubleRatchet.Proofs.Replay
import DoubleRatchet.Proofs.SendingKeys
import DoubleRatchet.Proofs.Sessions.Beginning
import DoubleRatchet.Proofs.Sessions.Receiving
import DoubleRatchet.Proofs.Sessions.Steps
import DoubleRatchet.Proofs.SeveralSessions
import DoubleRatchet.Proofs.Signatures
import DoubleRatchet.Proofs.SingleUse
import DoubleRatchet.Proofs.SkippedKeys
import DoubleRatchet.Proofs.Transmission
import DoubleRatchet.Proofs.Trust
import DoubleRatchet.Proofs.Wire
import DoubleRatchet.Session.Cipher
import DoubleRatchet.Store.Watched
