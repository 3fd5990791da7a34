import NervesHubLink.Theorems.InstallSafe
import NervesHubLink.Theorems.OtaCleanup
import NervesHubLink.Theorems.Apply
import NervesHubLink.Theorems.Order
import NervesHubLink.Theorems.OptIn
import NervesHubLink.Theorems.Backoff
import NervesHubLink.Theorems.LogQueue
import NervesHubLink.Theorems.Reassembly
import NervesHubLink.Theorems.Silence
import NervesHubLink.Theorems.Delivery
import NervesHubLink.Theorems.Replies
import NervesHubLink.Theorems.Closes
import NervesHubLink.Theorems.Window
import NervesHubLink.Theorems.Pumping
import NervesHubLink.Theorems.Beats
import NervesHubLink.Theorems.Pace
import NervesHubLink.Theorems.Failures
import NervesHubLink.Theorems.Grace
import NervesHubLink.Theorems.Retries
import NervesHubLink.Theorems.WriterSafe
import NervesHubLink.Theorems.Batches
import NervesHubLink.Theorems.Stamps
import NervesHubLink.Theorems.Budget
import NervesHubLink.Theorems.Refs
import NervesHubLink.Theorems.Reconnects
import NervesHubLink.Theorems.Interrupted
import NervesHubLink.Theorems.Signature
import NervesHubLink.Theorems.Stops
import NervesHubLink.Theorems.Pem
import NervesHubLink.Theorems.Percents
import NervesHubLink.Theorems.Truncation
import NervesHubLink.Theorems.Terminal
import NervesHubLink.Theorems.Keys
import NervesHubLink.Theorems.Registry
import NervesHubLink.Theorems.Conversation
import NervesHubLink.Theorems.Guarded
import NervesHubLink.Theorems.Leaving
import NervesHubLink.Theorems.Tickets
import NervesHubLink.Theorems.Handles
import NervesHubLink.Theorems.Naming
import NervesHubLink.Theorems.Connections
import NervesHubLink.Theorems.Callbacks
import NervesHubLink.Theorems.Lookups
import NervesHubLink.Theorems.Booting
import NervesHubLink.Theorems.Controls
import NervesHubLink.Theorems.Loading
