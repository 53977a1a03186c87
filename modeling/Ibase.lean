import Ibase.Queue
import Ibase.Writing
import Ibase.Channel
import Ibase.Resync
import Ibase.HeaderErrors
import Ibase.Progress
import Ibase.Schedule
import Ibase.Switch
import Ibase.Acceptor
import Ibase.Ownership
import Ibase.Reassembly
import Ibase.Succession
import Ibase.Provenance
import Ibase.Lifecycle
import Ibase.Invocation
import Ibase.Suppression
import Ibase.Publication
import Ibase.Delivery
import Ibase.Threads
import Ibase.Sweep
import Ibase.Reentry
import Ibase.Answer
import Ibase.Expiry
import Ibase.Timely
import Ibase.Awake
import Ibase.Acting
import Ibase.Checking
import Ibase.Retrying
