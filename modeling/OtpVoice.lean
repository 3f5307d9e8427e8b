import OtpVoice.Core.Mobile
import OtpVoice.Core.Waiting
import OtpVoice.Ami.Client
import OtpVoice.Ami.Connection
import OtpVoice.Ami.Failure
import OtpVoice.Ami.Variable
import OtpVoice.Ami.Wire
import OtpVoice.Asterisk.Dialplan
import OtpVoice.Api.Atomicity
import OtpVoice.Api.Chain
import OtpVoice.Api.Expiry
import OtpVoice.Api.InProgress
import OtpVoice.Api.Slots
import OtpVoice.Api.Spelling
import OtpVoice.Service.Answered
import OtpVoice.Service.Completion
import OtpVoice.Service.HangupCause
import OtpVoice.Service.Independence
import OtpVoice.Service.Progress
import OtpVoice.Service.Secrecy
import OtpVoice.Service.SuccessfulCall
import OtpVoice.Service.Timeline
import OtpVoice.Ami.HangupRace
import OtpVoice.Ami.Outcome
import OtpVoice.Ami.Redelivery
import OtpVoice.Storage.UpdateRace
import OtpVoice.Storage.UpdateSequence
import OtpVoice.Ami.Reconnect
import OtpVoice.Api.Answers
import OtpVoice.Api.Auth
import OtpVoice.Api.Polling
import OtpVoice.Service.Retention
import OtpVoice.Service.SqlLives
import OtpVoice.Service.WellFormed
import OtpVoice.Service.Attempted
