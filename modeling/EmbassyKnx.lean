import EmbassyKnx.Driver.Faults
import EmbassyKnx.Driver.Transmit
import EmbassyKnx.Transport.Borrow
import EmbassyKnx.Transport.Tpdu
import EmbassyKnx.Transport.Isolation
import EmbassyKnx.Transport.Sequence
import EmbassyKnx.Transport.Cancellation
import EmbassyKnx.Transport.Counter
import EmbassyKnx.Transport.Sending
import EmbassyKnx.Application.GroupResponse
import EmbassyKnx.Application.GroupRead
import EmbassyKnx.Application.Values
import EmbassyKnx.Driver.Resync
import EmbassyKnx.Driver.Sizes
import EmbassyKnx.Driver.Apdu
import EmbassyKnx.Frame.Setters
import EmbassyKnx.System.Confirm
import EmbassyKnx.System.Deadlock
import EmbassyKnx.System.Rest
import EmbassyKnx.System.Lasting
