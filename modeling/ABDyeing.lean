import ABDyeing.Config.Copy
import ABDyeing.Config.Insert
import ABDyeing.Config.Print
import ABDyeing.FlushPolicy
import ABDyeing.FlushPushUser
import ABDyeing.FlushThread
import ABDyeing.Fresh.Brokers
import ABDyeing.Fresh.Cutoff
import ABDyeing.Fresh.Index
import ABDyeing.Fresh.Interleaving
import ABDyeing.Fresh.Loadbase
import ABDyeing.Fresh.Retention
import ABDyeing.HourThread
import ABDyeing.Isolation
import ABDyeing.Kafka.Index
import ABDyeing.Kafka.Process
import ABDyeing.Online.Buckets
import ABDyeing.Online.Entries
import ABDyeing.Online.Format
import ABDyeing.Online.Keys
import ABDyeing.Online.Match
import ABDyeing.Online.Segments
import ABDyeing.Precedence
import ABDyeing.Reply
import ABDyeing.Server.Defined
import ABDyeing.Server.Endings
import ABDyeing.Server.Hours
import ABDyeing.Server.Restarts
import ABDyeing.Server.Startup
import ABDyeing.Snapshot.Results
import ABDyeing.Thrift.Dispatch
