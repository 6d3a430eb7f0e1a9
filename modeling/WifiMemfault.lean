import WifiMemfault.LogStateCrash
import WifiMemfault.LogStateRace
import WifiMemfault.LogStateCapture
import WifiMemfault.LogPath
import WifiMemfault.LogReconnect
import WifiMemfault.LogReboot
import WifiMemfault.FwStatsCdr
import WifiMemfault.FwStatsImage
import WifiMemfault.CdrPath
import WifiMemfault.CdrDelivery
import WifiMemfault.CdrUpload
import WifiMemfault.CdrOrder
import WifiMemfault.MqttClient
import WifiMemfault.MqttThread
import WifiMemfault.MqttBackoff
import WifiMemfault.MqttEchoCounters
import WifiMemfault.OtaServed
import WifiMemfault.OtaManualCheck
import WifiMemfault.OtaNoLostTrigger
import WifiMemfault.OutageHistory
import WifiMemfault.PersistBurst
import WifiMemfault.PersistTimes
import WifiMemfault.MqttEchoTimeout
import WifiMemfault.MqttEchoValue
import WifiMemfault.MqttLink
import WifiMemfault.HttpsClient
import WifiMemfault.Lib.TimedWait
import WifiMemfault.MqttListener
import WifiMemfault.FailedAttempts
import WifiMemfault.ConnectivityViews
import WifiMemfault.Lib.OneShotStore
import WifiMemfault.OneShotDelivery
import WifiMemfault.CdrCrash
import WifiMemfault.CdrReadout
import WifiMemfault.CdrFailure
import WifiMemfault.LogStateFailure
import WifiMemfault.MqttBackoffDelay
import WifiMemfault.MqttEchoParse
import WifiMemfault.UploadConnect
import WifiMemfault.HttpsRequest
import WifiMemfault.HttpsRequestSpec
import WifiMemfault.HttpsAccounts
import WifiMemfault.HttpsStatusLine
import WifiMemfault.LogStateRoundTrip
import WifiMemfault.CoredumpStorage
import WifiMemfault.WifiMetrics
import WifiMemfault.Lib.PackedStruct
import WifiMemfault.Lib.PyText
import WifiMemfault.StructFields
import WifiMemfault.StructComments
import WifiMemfault.StatsParser
import WifiMemfault.StatsRoundTrip
import WifiMemfault.StatsTruncated
import WifiMemfault.CoredumpFlash
import WifiMemfault.Lib.HexText
import WifiMemfault.Lib.TextPattern
import WifiMemfault.StatsDelivery
import WifiMemfault.HttpsPace
import WifiMemfault.Lib.LastWrite
import WifiMemfault.MemonitorMetrics
import WifiMemfault.MqttPace
import WifiMemfault.OtaChecks
import WifiMemfault.CertProvision
import WifiMemfault.DeviceRuns
import WifiMemfault.HttpsRequestRuns
import WifiMemfault.MqttAccounts
import WifiMemfault.MqttTopics
import WifiMemfault.HttpsWire
