import Chatbit.Lib.Method
import Chatbit.Lib.OrderedDict
import Chatbit.Lib.JsonTheorems
import Chatbit.Lib.AtomicFile
import Chatbit.Crypto.Assumptions
import Chatbit.Crypto.RatchetTheorems
import Chatbit.Crypto.RatchetRunTheorems
import Chatbit.Crypto.Symbolic
import Chatbit.Crypto.NoiseTheorems
import Chatbit.Crypto.CipherNonces
import Chatbit.SessionRunTheorems
import Chatbit.SessionPins
import Chatbit.SessionCleanup
import Chatbit.SessionLimits
import Chatbit.SessionTimeout
import Chatbit.Crypto.SharedTrust
import Chatbit.Crypto.TrustFile
import Chatbit.Crypto.RatchetStorage
import Chatbit.VerifiedLabel
import Chatbit.NodeFlood
import Chatbit.NodeCalls
import Chatbit.NodeIdentities
import Chatbit.ConversationTheorems
import Chatbit.ConversationDelivery
import Chatbit.VerifiedPeers
import Chatbit.NodeMeshTheorems
import Chatbit.Nicknames
import Chatbit.Handshake.Connect
import Chatbit.Handshake.Forgery
import Chatbit.Handshake.Matched
import Chatbit.Handshake.Agreement
import Chatbit.Handshake.CrossingTheorems
import Chatbit.Wire.PacketTheorems
import Chatbit.Traffic.Pipeline
import Chatbit.Traffic.Length
import Chatbit.Traffic.Linking
import Chatbit.Traffic.FailedSends
import Chatbit.Traffic.TrialCommit
import Chatbit.Traffic.CoverShare
import Chatbit.Radio.DutyCycle
import Chatbit.Radio.Accounting
import Chatbit.Radio.Waiting
import Chatbit.Radio.AirtimeTheorems
import Chatbit.Radio.SlipGrammar
import Chatbit.Radio.ReceiverTheorems
import Chatbit.Crypto.Healing
import Chatbit.Crypto.KeyUniqueness
import Chatbit.Crypto.SkippedKeysRun
import Chatbit.Wire.ReassemblyBounds
import Chatbit.Wire.ReassemblyConflicts
import Chatbit.Wire.TagTheorems
import Chatbit.Mesh.LocalDelivery
import Chatbit.Mesh.Replay
import Chatbit.Mesh.StoredTags
import Chatbit.Mesh.Dedup
import Chatbit.Mesh.FloodTheorems
import Chatbit.Mesh.Coverage
import Chatbit.Crypto.IdentityFileTheorems
import Chatbit.Crypto.TrustRestarts
