import P4Key.Cbor.Capacity
import P4Key.Cbor.Skip
import P4Key.Cbor.Sticky
import P4Key.Cred.FailClosed
import P4Key.Cred.Permanent
import P4Key.Crypto.Aliasing
import P4Key.Crypto.Der
import P4Key.Crypto.Order
import P4Key.Crypto.Release
import P4Key.Crypto.Sha
import P4Key.Crypto.Slots
import P4Key.Ctap.AssertionGrammar
import P4Key.Ctap.Exclude
import P4Key.Ctap.Presence
import P4Key.Ctap.RegistrationGrammar
import P4Key.Ctaphid.Allocation
import P4Key.Ctaphid.Reassembly
import P4Key.Ctaphid.Refines
import P4Key.Ctaphid.Replies
import P4Key.Ctaphid.Stale
import P4Key.Ctaphid.Timeouts
import P4Key.Device.Agreement
import P4Key.Device.Deployed
import P4Key.Device.Ready
import P4Key.Device.Waiting
import P4Key.Hid.Answers
import P4Key.Hid.Cancel
import P4Key.Hid.Pings
import P4Key.Hid.Turns
import P4Key.Hid.Wakeup
import P4Key.Hid.Worker
import P4Key.Host.Framing
import P4Key.Press.Fresh
import P4Key.Usb.Send
import P4Key.Usb.Wakeup
